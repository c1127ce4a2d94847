import MaterialText.Proofs.Single.LiteralGrammar
import MaterialText.Proofs.Statement.Readers

namespace MaterialText.Statement
open FloatLiteral

variable {line s t w name rest rhs : Text} {type : FloatType} {values : List Single} {c : Constant}
  {d : Char}

def typeNames : List (Text × Nat) :=
  [("float".toList, 1), ("float2".toList, 2), ("float3".toList, 3), ("float4".toList, 4)]

/-- Literals with commas between them and blanks around each. -/
inductive Components : Text → List Single → Prop
  | one {w₀ literal w₁ : Text} {x : Single} (h₀ : Blanks w₀) (h : Literal literal x)
      (h₁ : Blanks w₁) : Components (w₀ ++ (literal ++ w₁)) [x]
  | more {w₀ literal w₁ t : Text} {x : Single} {values : List Single} (h₀ : Blanks w₀)
      (h : Literal literal x) (h₁ : Blanks w₁) (ht : Components t values) :
      Components (w₀ ++ (literal ++ (w₁ ++ ',' :: t))) (x :: values)

/-- One literal for all components of a type, or its constructor with one for each. -/
inductive RightSide (type : Text) (dimension : Nat) : Text → List Single → Prop
  | scalar {literal : Text} {x : Single} (h : Literal literal x) :
      RightSide type dimension literal (List.replicate dimension x)
  | vector {w t : Text} {values : List Single} (hw : Blanks w) (ht : Components t values)
      (hlen : values.length = dimension) :
      RightSide type dimension (type ++ (w ++ '(' :: (t ++ [')']))) values

def Declares (line : Text) (c : Constant) : Prop :=
  ∃ w₀ w₁ w₂ w₃ w₄ w₅ w₆ type rhs, (∀ w ∈ [w₀, w₁, w₂, w₃, w₄, w₅, w₆], Blanks w) ∧
    line = w₀ ++ ("const".toList ++ (w₁ ++ (type ++ (w₂ ++ (c.name ++
      (w₃ ++ '=' :: (w₄ ++ (rhs ++ (w₅ ++ ';' :: w₆))))))))) ∧
      w₁ ≠ [] ∧ w₂ ≠ [] ∧ (type, c.values.length) ∈ typeNames ∧ IsWord c.name ∧
        RightSide type c.values.length rhs c.values

theorem Components.isFinite (h : Components t values) : ∀ v ∈ values, v.isFinite = true := by
  induction h with
  | one _ h => exact List.forall_mem_singleton.mpr h.isFinite
  | more _ h _ _ ih => exact List.forall_mem_cons.mpr ⟨h.isFinite, ih⟩

theorem RightSide.isFinite {type : Text} {dimension : Nat} (h : RightSide type dimension rhs values) :
    ∀ v ∈ values, v.isFinite = true := by
  cases h with
  | scalar h =>
    intro v hv
    rw [List.eq_of_mem_replicate hv]
    exact h.isFinite
  | vector _ h => exact h.isFinite

/-- The values that a line gives to a constant are finite, and its name is a word. -/
theorem Declares.spec (h : Declares line c) :
    IsWord c.name ∧ ∀ v ∈ c.values, v.isFinite = true := by
  obtain ⟨_, _, _, _, _, _, _, _, _, _, _, _, _, _, hname, hrhs⟩ := h
  exact ⟨hname, hrhs.isFinite⟩

theorem isWord_const : IsWord "const".toList := by decide

theorem isWord_typeName (type : FloatType) : IsWord type.name := by cases type <;> decide

theorem mem_typeNames_iff : (t, type.dimension) ∈ typeNames ↔ t = type.name := by
  have hall : typeNames = FloatType.all.map fun a => (a.name, a.dimension) := rfl
  rw [hall, List.mem_map]
  refine ⟨fun h => ?_, fun h => ⟨type, FloatType.mem_all type, by rw [h]⟩⟩
  obtain ⟨a, -, h⟩ := h
  obtain ⟨rfl, hdimension⟩ := Prod.mk.inj h
  have ha := FloatType.ofDimension?_dimension a
  rw [hdimension, FloatType.ofDimension?_dimension] at ha
  rw [Option.some.inj ha]

theorem not_isBlank_of_continues (h : continues d = true) : isBlank d = false := by
  simp only [continues, isExponentMark, isSuffix, Bool.or_eq_true, beq_iff_eq] at h
  rcases h with ((h | rfl) | rfl | rfl) | rfl | rfl
  · exact not_isBlank_of_isWordChar (by simp [isWordChar, Char.isAlphanum, h])
  all_goals decide

theorem stops_continues (hw : Blanks w) (hd : continues d = false) :
    Stops continues (w ++ d :: s) :=
  stops_blanks_append (fun _ => not_isBlank_of_continues) hw fun _ => stops_cons.mpr hd

theorem readFloat_eq_ok_iff {x : Single} :
    readFloat s = .ok (x, rest) ↔ FloatLiteral.read s = some (x, rest) := by
  unfold readFloat
  cases FloatLiteral.read s <;> simp

theorem readComponents_of_paren {x : Single} (h : FloatLiteral.read s = some (x, rest))
    (hrest : skipBlanks rest = ')' :: t) : readComponents s = .ok ([x], t) := by
  rw [readComponents]
  split <;> simp_all
  split <;> simp_all

theorem readComponents_of_comma {x : Single} (h : FloatLiteral.read s = some (x, rest))
    (hrest : skipBlanks rest = ',' :: t) :
    readComponents s = (readComponents t).map fun p => (x :: p.1, p.2) := by
  rw [readComponents]
  split <;> simp_all
  split <;> simp_all

theorem readComponents_run (h : Components t values) (rest : Text) :
    readComponents (t ++ ')' :: rest) = .ok (values, rest) := by
  have hparen : isBlank ')' = false := by decide
  have hcomma : isBlank ',' = false := by decide
  induction h with
  | @one w₀ literal w₁ x h₀ h h₁ =>
    have hread := read_literal h₀ h (stops_continues h₁ (s := rest) (d := ')') rfl)
    simp only [List.append_assoc]
    exact readComponents_of_paren hread (by simp [h₁, hparen])
  | @more w₀ literal w₁ t x values h₀ h h₁ ht ih =>
    have hread := read_literal h₀ h (stops_continues h₁ (s := t ++ ')' :: rest) (d := ',') rfl)
    simp only [List.append_assoc, List.cons_append]
    rw [readComponents_of_comma hread (skipBlanks_run h₁ (stops_cons.mpr hcomma)), ih]
    rfl

theorem exists_of_readComponents (h : readComponents s = .ok (values, rest)) :
    ∃ t, Components t values ∧ s = t ++ ')' :: rest := by
  fun_induction readComponents s generalizing values with
  | case1 => cases h
  | case2 s x after hread t hc =>
    cases h
    obtain ⟨w₀, literal, h₀, hliteral, rfl⟩ := exists_of_read hread
    obtain ⟨w₁, h₁, hafter⟩ := exists_blanks_append_skipBlanks after
    refine ⟨_, .one h₀ hliteral h₁, ?_⟩
    rw [hafter, hc]
    simp only [List.append_assoc]
  | case3 s x after hread t hc ih =>
    obtain ⟨⟨tail, u⟩, hp, h⟩ := map_eq_ok_iff.mp h
    cases h
    obtain ⟨v, hv, rfl⟩ := ih hp
    obtain ⟨w₀, literal, h₀, hliteral, rfl⟩ := exists_of_read hread
    obtain ⟨w₁, h₁, hafter⟩ := exists_blanks_append_skipBlanks after
    refine ⟨_, .more h₀ hliteral h₁ hv, ?_⟩
    rw [hafter, hc]
    simp only [List.append_assoc, List.cons_append]
  | case4 => cases h

theorem exists_typeName_eq (type : FloatType) : ∃ t, type.name = "float".toList ++ t := by
  cases type
  · exact ⟨[], rfl⟩
  · exact ⟨['2'], rfl⟩
  · exact ⟨['3'], rfl⟩
  · exact ⟨['4'], rfl⟩

theorem readVector_run (hw : Blanks w) (ht : Components t values)
    (hlen : values.length = type.dimension) (name rest : Text) :
    readVector name type (type.name ++ (w ++ '(' :: (t ++ ')' :: rest))) =
      .ok (⟨name, type, values, hlen⟩, rest) := by
  have hstop : Stops isWordChar (w ++ '(' :: (t ++ ')' :: rest)) :=
    stops_isWordChar_append hw fun _ => stops_cons.mpr (by decide)
  have hword := Word.scan_run blanks_nil (isWord_typeName type) hstop
  have hparen := (readChar_eq_ok_iff (by decide : isBlank '(' = false)).mpr
    ⟨w, hw, (rfl : w ++ '(' :: (t ++ ')' :: rest) = _)⟩
  rw [List.nil_append] at hword
  simp only [readVector, hword, if_true, hparen, readComponents_run ht, bind, Except.bind]
  rw [dif_pos hlen]

theorem exists_of_readVector (hs : Stops isBlank s) (h : readVector name type s = .ok (c, rest)) :
    ∃ w t, Blanks w ∧ Components t c.values ∧ c.name = name ∧ c.type = type ∧
      s = type.name ++ (w ++ '(' :: (t ++ ')' :: rest)) := by
  simp only [readVector] at h
  split at h
  · rename_i hword
    simp only [bind_eq_ok_iff] at h
    obtain ⟨after, hafter, ⟨values, u⟩, hvalues, h⟩ := h
    split at h
    · cases h
      obtain ⟨w, hw, hrest⟩ := (readChar_eq_ok_iff (by decide)).mp hafter
      obtain ⟨t, ht, rfl⟩ := exists_of_readComponents hvalues
      refine ⟨w, t, hw, ht, rfl, rfl, ?_⟩
      rw [← hrest, ← hword, Word.scan_append, skipBlanks_stops hs]
    · cases h
  · cases h

theorem not_isPrefixOf_of_literal {literal : Text} {x : Single} (h : Literal literal x) (t : Text) :
    "float".toList.isPrefixOf (literal ++ t) = false := by
  obtain ⟨a, u, rfl, ha⟩ := h.exists_cons
  have hf : ('f' == a) = false := by
    rw [beq_eq_false_iff_ne]
    rintro rfl
    cases ha
  change (('f' == a) && _) = false
  rw [hf, Bool.false_and]

theorem readValue_run (h : RightSide type.name type.dimension rhs values)
    (hlen : values.length = type.dimension) (hr : Stops continues rest) (name : Text) :
    readValue name type (rhs ++ rest) = .ok (⟨name, type, values, hlen⟩, rest) := by
  cases h with
  | @scalar literal x h =>
    have hread := read_literal blanks_nil h hr
    rw [List.nil_append] at hread
    rw [readValue, not_isPrefixOf_of_literal h, if_neg (by decide), readFloat_eq_ok_iff.mpr hread]
    rfl
  | vector hw ht =>
    -- A constructor begins like the shortest type, and no literal does.
    have hstart (t : Text) : "float".toList.isPrefixOf (type.name ++ t) = true := by
      obtain ⟨u, hu⟩ := exists_typeName_eq type
      rw [hu, List.append_assoc]
      exact List.isPrefixOf_iff_prefix.mpr (List.prefix_append _ _)
    have hvector := readVector_run hw ht hlen name rest
    rw [readValue]
    simp only [List.append_assoc, List.cons_append, List.nil_append]
    rw [hstart, if_pos rfl, hvector]

theorem exists_of_readValue (hs : Stops isBlank s) (h : readValue name type s = .ok (c, rest)) :
    ∃ rhs, RightSide type.name type.dimension rhs c.values ∧ c.name = name ∧ c.type = type ∧
      s = rhs ++ rest := by
  rw [readValue] at h
  split at h
  · obtain ⟨w, t, hw, ht, hname, htype, rfl⟩ := exists_of_readVector hs h
    have hlen : c.values.length = type.dimension := by rw [c.length_values, htype]
    refine ⟨_, .vector hw ht hlen, hname, htype, ?_⟩
    simp only [List.append_assoc, List.cons_append, List.nil_append]
  · obtain ⟨⟨x, u⟩, hx, h⟩ := map_eq_ok_iff.mp h
    obtain ⟨w, literal, hw, hliteral, hsplit⟩ := exists_of_read (readFloat_eq_ok_iff.mp hx)
    cases h
    -- The blanks before a literal are gone already.
    have hnil : w = [] := by
      cases w with
      | nil => rfl
      | cons a w =>
        have ha := hw a (by simp)
        rw [hs a (by rw [hsplit]; rfl)] at ha
        cases ha
    exact ⟨literal, .scalar hliteral, rfl, rfl, by rw [hsplit, hnil, List.nil_append]⟩

theorem readConstant_eq_ok_iff : readConstant s = .ok (.constant c, rest) ↔
    (Word.scan s).1 = c.type.name ∧ ∃ after equals value,
      readName (Word.scan s).2 = .ok (c.name, after) ∧ readChar '=' after = .ok equals ∧
        readValue c.name c.type (skipBlanks equals) = .ok (c, value) ∧
          readChar ';' value = .ok rest := by
  simp only [readConstant]
  refine ⟨fun h => ?_, fun h => ?_⟩
  · split at h
    · cases h
    · rename_i type htype
      simp only [bind_eq_ok_iff] at h
      obtain ⟨⟨name, after⟩, hname, equals, hequals, ⟨a, value⟩, hvalue, u, hu, h⟩ := h
      cases h
      obtain ⟨-, -, rfl, rfl, -⟩ := exists_of_readValue (stops_skipBlanks equals) hvalue
      exact ⟨FloatType.ofName?_eq_some_iff.mp htype, after, equals, value, hname, hequals, hvalue,
        hu⟩
  · obtain ⟨hword, after, equals, value, hname, hequals, hvalue, hrest⟩ := h
    rw [hword, FloatType.ofName?_eq_some_iff.mpr rfl]
    simp only [hname, hequals, hvalue, hrest, bind, Except.bind]

theorem readStart_eq_ok_constant_iff : readStart line = .ok (.constant c, rest) ↔
    ∃ w t, Blanks w ∧ line = w ++ ("const".toList ++ t) ∧ Stops isWordChar t ∧
      readConstant t = .ok (.constant c, rest) := by
  refine ⟨fun h => ?_, fun h => ?_⟩
  · cases heat : Text.eat '#' (skipBlanks line) with
    | some t =>
      rw [readStart_of_eat heat] at h
      exact absurd h readDirective_ne_constant
    | none =>
      rw [readStart_of_not_eat heat] at h
      split at h
      · rename_i hword
        obtain ⟨w, t, hw, rfl, ht⟩ := (Word.scan_fst_eq_iff isWord_const).mp hword
        rw [Word.scan_run hw isWord_const ht] at h
        exact ⟨w, t, hw, rfl, ht, h⟩
      · cases h
  · obtain ⟨w, t, hw, rfl, ht, h⟩ := h
    rw [readStart_of_not_eat (eat_hash_eq_none hw isWord_const t),
      Word.scan_run hw isWord_const ht, if_pos rfl]
    exact h

theorem RightSide.stops_isBlank (h : RightSide type.name type.dimension rhs values) (s : Text) :
    Stops isBlank (rhs ++ s) := by
  cases h with
  | scalar h =>
    obtain ⟨a, t, rfl, ha⟩ := h.exists_cons
    exact stops_cons.mpr (not_isBlank_of_starts ha)
  | vector =>
    obtain ⟨t, ht⟩ := exists_typeName_eq type
    rw [ht]
    exact stops_cons.mpr (by decide)

theorem parse_constant_iff_declares : parse line = .ok (.constant c) ↔ Declares line c := by
  have hequals : isBlank '=' = false := by decide
  have hsemicolon : isBlank ';' = false := by decide
  rw [parse_eq_ok_iff]
  refine ⟨fun h => ?_, fun h => ?_⟩
  · obtain ⟨w₆, hstart, hw₆⟩ := h
    obtain ⟨w₀, t, hw₀, rfl, ht, hconstant⟩ := readStart_eq_ok_constant_iff.mp hstart
    obtain ⟨hword, after, equals, u, hname, heq, hvalue, hend⟩ := readConstant_eq_ok_iff.mp hconstant
    obtain ⟨w₁, v, hw₁, rfl, hv⟩ := (Word.scan_fst_eq_iff (isWord_typeName c.type)).mp hword
    rw [Word.scan_run hw₁ (isWord_typeName c.type) hv] at hname
    obtain ⟨w₂, hw₂, hisWord, -, rfl⟩ := readName_eq_ok_iff.mp hname
    obtain ⟨w₃, hw₃, rfl⟩ := (readChar_eq_ok_iff hequals).mp heq
    obtain ⟨w₄, hw₄, hsplit⟩ := exists_blanks_append_skipBlanks equals
    obtain ⟨rhs, hrhs, -, -, hrest⟩ := exists_of_readValue (stops_skipBlanks equals) hvalue
    obtain ⟨w₅, hw₅, rfl⟩ := (readChar_eq_ok_iff hsemicolon).mp hend
    -- The type read is that of the constant, so its dimension is the number of its values.
    rw [← c.length_values] at hrhs
    refine ⟨w₀, w₁, w₂, w₃, w₄, w₅, w₆, c.type.name, rhs, ?_, ?_, ?_, ?_, ?_, hisWord, hrhs⟩
    · simp only [List.forall_mem_cons]
      exact ⟨hw₀, hw₁, hw₂, hw₃, hw₄, hw₅, hw₆, by simp⟩
    · rw [← hrest, ← hsplit]
    -- Without a blank each word would go on with the next.
    · intro h
      rw [h] at ht
      exact not_stops_word_append (isWord_typeName c.type) _ ht
    · intro h
      rw [h] at hv
      exact not_stops_word_append hisWord _ hv
    · rw [c.length_values]
      exact mem_typeNames_iff.mpr rfl
  · obtain ⟨w₀, w₁, w₂, w₃, w₄, w₅, w₆, type, rhs, hw, rfl, h₁, h₂, htype, hname, hrhs⟩ := h
    simp only [List.forall_mem_cons] at hw
    obtain ⟨hw₀, hw₁, hw₂, hw₃, hw₄, hw₅, hw₆, -⟩ := hw
    rw [c.length_values] at htype hrhs
    obtain rfl := mem_typeNames_iff.mp htype
    refine ⟨w₆, readStart_eq_ok_constant_iff.mpr ⟨w₀, _, hw₀, rfl, ?_, ?_⟩, hw₆⟩
    · exact stops_isWordChar_append hw₁ fun h => absurd h h₁
    · have hafter : Stops isWordChar (w₂ ++ (c.name ++ (w₃ ++ '=' :: (w₄ ++ (rhs ++
          (w₅ ++ ';' :: w₆)))))) := stops_isWordChar_append hw₂ fun h => absurd h h₂
      have hstop : Stops isWordChar (w₃ ++ '=' :: (w₄ ++ (rhs ++ (w₅ ++ ';' :: w₆)))) :=
        stops_isWordChar_append hw₃ fun _ => stops_cons.mpr (by decide)
      rw [readConstant_eq_ok_iff, Word.scan_run hw₁ (isWord_typeName c.type) hafter]
      refine ⟨rfl, _, _, w₅ ++ ';' :: w₆, readName_eq_ok_iff.mpr ⟨w₂, hw₂, hname, hstop, rfl⟩,
        (readChar_eq_ok_iff hequals).mpr ⟨w₃, hw₃, rfl⟩, ?_,
        (readChar_eq_ok_iff hsemicolon).mpr ⟨w₅, hw₅, rfl⟩⟩
      rw [skipBlanks_run hw₄ (hrhs.stops_isBlank _)]
      exact readValue_run hrhs c.length_values (stops_continues hw₅ rfl) c.name

/-- The grammar of constants is accepted exactly, and what starts as a declaration and is none is
kept verbatim. -/
theorem parse_constant_iff (line : Text) :
    (∀ c, parse line = .ok (.constant c) ↔ Declares line c) ∧
    ((∃ w rest, Blanks w ∧ line = w ++ ("const".toList ++ rest) ∧ Stops isWordChar rest) →
      (¬∃ c, Declares line c) →
        (∃ e, parse line = .error e) ∧ ofLine line = .verbatim line) := by
  refine ⟨fun c => parse_constant_iff_declares, fun hconst hnone => ?_⟩
  have herror : ∃ e, parse line = .error e := by
    cases hparse : parse line with
    | error e => exact ⟨e, rfl⟩
    | ok st =>
      obtain ⟨rest, hstart, -⟩ := parse_eq_ok_iff.mp hparse
      obtain ⟨w, t, hw, rfl, ht⟩ := hconst
      rw [readStart_of_not_eat (eat_hash_eq_none hw isWord_const t),
        Word.scan_run hw isWord_const ht, if_pos rfl] at hstart
      obtain ⟨c, rfl⟩ := exists_constant_of_readConstant hstart
      exact absurd ⟨c, parse_constant_iff_declares.mp hparse⟩ hnone
  obtain ⟨e, he⟩ := herror
  exact ⟨⟨e, he⟩, by rw [ofLine, he]⟩

example : parse "const float2 x = float2_(1, 2);".toList =
    .error ⟨.constructorMismatch "float2".toList "float2_".toList, 17⟩ := by decide

end MaterialText.Statement
