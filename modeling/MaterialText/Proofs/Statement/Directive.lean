import MaterialText.Proofs.Numeral.IntegerLiteral
import MaterialText.Proofs.Statement.Readers
import MaterialText.Proofs.Text.QuotedBody

namespace MaterialText.Statement

variable {line s t w name after rest argument : Text} {st : Statement} {i : Int64}

/-- A line that defines a name as the word of 64 bits that its literal denotes. -/
def DefinesInteger (line name : Text) (value : Int64) : Prop :=
  ∃ w₀ w₁ w₂ w₃ w₄ literal k, (∀ w ∈ [w₀, w₁, w₂, w₃, w₄], Blanks w) ∧
    line = w₀ ++ '#' :: (w₁ ++ ("define".toList ++ (w₂ ++ (name ++ (w₃ ++ (literal ++ w₄)))))) ∧
      w₂ ≠ [] ∧ IsWord name ∧ (w₃ = [] → literal.head? = some '-') ∧
        Integer.Denotes literal k ∧ value.toInt ≡ k [ZMOD 2 ^ 64]

/-- A line that defines a name as what stands between two quotes, decoded. -/
def DefinesText (line name value : Text) : Prop :=
  ∃ w₀ w₁ w₂ w₃ w₄ body, (∀ w ∈ [w₀, w₁, w₂, w₃, w₄], Blanks w) ∧
    line = w₀ ++ '#' ::
        (w₁ ++ ("define".toList ++ (w₂ ++ (name ++ (w₃ ++ '"' :: (body ++ '"' :: w₄)))))) ∧
      w₂ ≠ [] ∧ IsWord name ∧ Quoted.Body body value

/-- A line that includes the rest of itself, without the blanks that the rest begins with. -/
def Includes (line argument : Text) : Prop :=
  ∃ w₀ w₁ w₂, (∀ w ∈ [w₀, w₁, w₂], Blanks w) ∧
    line = w₀ ++ '#' :: (w₁ ++ ("include".toList ++ (w₂ ++ argument))) ∧
      Stops isWordChar (w₂ ++ argument) ∧ Stops isBlank argument

theorem DefinesInteger.isWord (h : DefinesInteger line name i) : IsWord name := by
  obtain ⟨_, _, _, _, _, _, _, _, _, _, hname, _⟩ := h
  exact hname

theorem DefinesText.isWord {value : Text} (h : DefinesText line name value) : IsWord name := by
  obtain ⟨_, _, _, _, _, _, _, _, _, hname, _⟩ := h
  exact hname

theorem Includes.spec (h : Includes line argument) :
    Stops isBlank argument ∧ argument <:+ line := by
  obtain ⟨w₀, w₁, w₂, _, rfl, _, hargument⟩ := h
  refine ⟨hargument, w₀ ++ '#' :: (w₁ ++ ("include".toList ++ w₂)), ?_⟩
  simp only [List.append_assoc, List.cons_append]

theorem isWord_define : IsWord "define".toList := by decide

theorem isWord_include : IsWord "include".toList := by decide

theorem readDirective_eq_ok_iff : readDirective s = .ok (st, rest) ↔
    ((Word.scan s).1 = "define".toList ∧ ∃ name after, readName (Word.scan s).2 = .ok (name, after) ∧
      readDefined name (skipBlanks after) = .ok (st, rest)) ∨
    ((Word.scan s).1 = "include".toList ∧ st = .inclusion (skipBlanks (Word.scan s).2) ∧
      rest = []) := by
  have hne : "include".toList ≠ "define".toList := by decide
  simp only [readDirective]
  by_cases hd : (Word.scan s).1 = "define".toList
  · rw [if_pos hd, bind_eq_ok_iff, hd]
    simp only [true_and, hne.symm, false_and, or_false, Prod.exists]
  · rw [if_neg hd]
    by_cases hi : (Word.scan s).1 = "include".toList
    · rw [if_pos hi, hi]
      simp only [hne, false_and, false_or, true_and, Except.ok.injEq, Prod.mk.injEq, eq_comm]
    · rw [if_neg hi]
      simp only [hd, hi, false_and, or_false, reduceCtorEq]

theorem parse_eq_ok_iff_readDirective (hc : ∀ c, st ≠ .constant c) : parse line = .ok st ↔
    ∃ w t rest, Blanks w ∧ line = w ++ '#' :: t ∧ readDirective (skipBlanks t) = .ok (st, rest) ∧
      Blanks rest := by
  rw [parse_eq_ok_iff]
  refine ⟨fun h => ?_, fun h => ?_⟩
  · obtain ⟨rest, hstart, hrest⟩ := h
    cases ht : Text.eat '#' (skipBlanks line) with
    | some t =>
      rw [readStart_of_eat ht] at hstart
      obtain ⟨w, hw, hline⟩ := exists_blanks_append_skipBlanks line
      rw [Text.eat_eq_some_iff.mp ht] at hline
      exact ⟨w, t, rest, hw, hline, hstart, hrest⟩
    | none =>
      rw [readStart_of_not_eat ht] at hstart
      split at hstart
      · obtain ⟨c, rfl⟩ := exists_constant_of_readConstant hstart
        exact absurd rfl (hc c)
      · cases hstart
  · obtain ⟨w, t, rest, hw, rfl, hread, hrest⟩ := h
    refine ⟨rest, ?_, hrest⟩
    rw [readStart_of_eat (eat_hash hw t)]
    exact hread

/-- The head of a definition, up to its name. -/
theorem parse_definition_iff (hc : ∀ c, st ≠ .constant c) (hi : ∀ a, st ≠ .inclusion a) :
    parse line = .ok st ↔ ∃ w₀ w₁ w₂ name after rest, (∀ w ∈ [w₀, w₁, w₂], Blanks w) ∧
      line = w₀ ++ '#' :: (w₁ ++ ("define".toList ++ (w₂ ++ (name ++ after)))) ∧
        w₂ ≠ [] ∧ IsWord name ∧ Stops isWordChar after ∧
          readDefined name (skipBlanks after) = .ok (st, rest) ∧ Blanks rest := by
  rw [parse_eq_ok_iff_readDirective hc]
  refine ⟨fun h => ?_, fun h => ?_⟩
  · obtain ⟨w₀, t, rest, hw₀, rfl, hread, hrest⟩ := h
    rw [readDirective_eq_ok_iff, Word.scan_skipBlanks] at hread
    obtain ⟨hword, name, after, hname, hdefined⟩ | ⟨-, hst, -⟩ := hread
    · obtain ⟨w₁, hw₁, ht⟩ := Word.exists_blanks_append_scan t
      have hstop := Word.stops_scan t
      obtain ⟨w₂, hw₂, hisWord, hafter, hrest'⟩ := readName_eq_ok_iff.mp hname
      rw [hword, hrest'] at ht
      rw [hrest'] at hstop
      refine ⟨w₀, w₁, w₂, name, after, rest, by simp [hw₀, hw₁, hw₂], by rw [ht], ?_, hisWord,
        hafter, hdefined, hrest⟩
      -- Without a blank the word would go on with the name.
      intro h
      rw [h, List.nil_append] at hstop
      exact not_stops_word_append hisWord after hstop
    · exact absurd hst (hi _)
  · obtain ⟨w₀, w₁, w₂, name, after, rest, hw, rfl, hne, hname, hafter, hdefined, hrest⟩ := h
    simp only [List.forall_mem_cons] at hw
    obtain ⟨hw₀, hw₁, hw₂, -⟩ := hw
    refine ⟨w₀, _, rest, hw₀, rfl, ?_, hrest⟩
    have hstop : Stops isWordChar (w₂ ++ (name ++ after)) :=
      stops_isWordChar_append hw₂ fun h => absurd h hne
    rw [readDirective_eq_ok_iff, Word.scan_skipBlanks, Word.scan_run hw₁ isWord_define hstop]
    exact .inl ⟨rfl, name, after, readName_eq_ok_iff.mpr ⟨w₂, hw₂, hname, hafter, rfl⟩, hdefined⟩

theorem head?_of_denotes {literal : Text} {k : Int} (h : Integer.Denotes literal k) :
    ∃ d t, literal = d :: t ∧ (d = '-' ∨ d.isDigit = true) := by
  cases h with
  | plain h =>
    obtain ⟨d, t, rfl, hd⟩ := h.exists_cons
    exact ⟨d, _, rfl, .inr hd⟩
  | minus => exact ⟨_, _, rfl, .inl rfl⟩

theorem readDefined_eq_ok_integer_iff {name' : Text} :
    readDefined name s = .ok (.defineInteger name' i, rest) ↔
      name = name' ∧ s.head? ≠ some '"' ∧ Integer.scan s = some (i, rest) := by
  unfold readDefined
  split
  · rename_i hq
    refine ⟨fun h => ?_, fun h => absurd hq h.2.1⟩
    obtain ⟨p, -, hp⟩ := map_eq_ok_iff.mp h
    cases hp
  · rename_i hq
    rw [map_eq_ok_iff]
    cases h : Integer.scan s with
    | none => simp [readInteger, h]
    | some p => simp [readInteger, h, hq, Prod.ext_iff, and_assoc]

theorem readDefined_eq_ok_text_iff {name' value : Text} :
    readDefined name s = .ok (.defineText name' value, rest) ↔
      name = name' ∧ s.head? = some '"' ∧ Quoted.scan s = some (value, rest) := by
  unfold readDefined
  split
  · rename_i hq
    rw [map_eq_ok_iff]
    cases h : Quoted.scan s with
    | none => simp [readQuoted, h]
    | some p => simp [readQuoted, h, hq, Prod.ext_iff, and_assoc]
  · rename_i hq
    refine ⟨fun h => ?_, fun h => absurd h.2.1 hq⟩
    obtain ⟨p, -, hp⟩ := map_eq_ok_iff.mp h
    cases hp

theorem parse_defineInteger_iff :
    parse line = .ok (.defineInteger name i) ↔ DefinesInteger line name i := by
  rw [parse_definition_iff (by simp) (by simp)]
  refine ⟨fun h => ?_, fun h => ?_⟩
  · obtain ⟨w₀, w₁, w₂, name', after, w₄, hw, rfl, hne, hname, hafter, hdefined, hw₄⟩ := h
    obtain ⟨rfl, -, hscan⟩ := readDefined_eq_ok_integer_iff.mp hdefined
    obtain ⟨v, hv, hsplit⟩ := exists_blanks_append_skipBlanks after
    obtain ⟨u, literal, k, hu, hliteral, rfl, hrest⟩ := Integer.exists_of_scan hscan
    have hsplit' : after = (v ++ u) ++ (literal ++ w₄) := by
      rw [hsplit, hrest, List.append_assoc]
    refine ⟨w₀, w₁, w₂, v ++ u, w₄, literal, k, ?_, ?_, hne, hname, ?_, hliteral,
      Integer.ofInt_eq_iff.mp rfl⟩
    · simp only [List.forall_mem_cons] at hw ⊢
      exact ⟨hw.1, hw.2.1, hw.2.2.1, hv.append hu, hw₄, hw.2.2.2⟩
    · rw [← hsplit']
    -- Without a blank a digit would go on with the name.
    · intro hw₃
      obtain ⟨d, t, rfl, hd⟩ := head?_of_denotes hliteral
      rw [hsplit', hw₃, List.nil_append, List.cons_append, stops_cons] at hafter
      rcases hd with rfl | hd
      · rfl
      · rw [Integer.isWordChar_of_isDigit hd] at hafter
        cases hafter
  · obtain ⟨w₀, w₁, w₂, w₃, w₄, literal, k, hw, rfl, hne, hname, hminus, hliteral, hi⟩ := h
    simp only [List.forall_mem_cons] at hw
    obtain ⟨hw₀, hw₁, hw₂, hw₃, hw₄, hnil⟩ := hw
    obtain ⟨d, t, hdt, hd⟩ := head?_of_denotes hliteral
    have hblank : Stops isBlank (literal ++ w₄) := by
      rw [hdt, List.cons_append, stops_cons]
      rcases hd with rfl | hd
      · decide
      · exact not_isBlank_of_isWordChar (Integer.isWordChar_of_isDigit hd)
    refine ⟨w₀, w₁, w₂, name, w₃ ++ (literal ++ w₄), w₄, ?_, rfl, hne, hname, ?_, ?_, hw₄⟩
    · simp only [List.forall_mem_cons]
      exact ⟨hw₀, hw₁, hw₂, hnil⟩
    · apply stops_isWordChar_append hw₃
      intro hw
      have hd : d = '-' := by simpa [hdt] using hminus hw
      rw [hdt, hd, List.cons_append, stops_cons]
      decide
    · rw [skipBlanks_run hw₃ hblank, readDefined_eq_ok_integer_iff]
      refine ⟨rfl, ?_, ?_⟩
      · rw [hdt, List.cons_append, List.head?_cons]
        intro hq
        rw [Option.some.inj hq] at hd
        rcases hd with hd | hd <;> cases hd
      · have hscan := Integer.scan_run blanks_nil hliteral (stops_isWordChar_of_blanks hw₄)
        rwa [Integer.ofInt_eq_iff.mpr hi] at hscan

theorem parse_defineText_iff {value : Text} :
    parse line = .ok (.defineText name value) ↔ DefinesText line name value := by
  have hquote : isBlank '"' = false := by decide
  rw [parse_definition_iff (by simp) (by simp)]
  refine ⟨fun h => ?_, fun h => ?_⟩
  · obtain ⟨w₀, w₁, w₂, name', after, w₄, hw, rfl, hne, hname, -, hdefined, hw₄⟩ := h
    obtain ⟨rfl, -, hscan⟩ := readDefined_eq_ok_text_iff.mp hdefined
    obtain ⟨v, hv, hsplit⟩ := exists_blanks_append_skipBlanks after
    obtain ⟨u, body, hu, hbody, hrest⟩ := Quoted.scan_eq_some_iff.mp hscan
    refine ⟨w₀, w₁, w₂, v ++ u, w₄, body, ?_, ?_, hne, hname, hbody⟩
    · simp only [List.forall_mem_cons] at hw ⊢
      exact ⟨hw.1, hw.2.1, hw.2.2.1, hv.append hu, hw₄, hw.2.2.2⟩
    · rw [List.append_assoc, ← hrest, ← hsplit]
  · obtain ⟨w₀, w₁, w₂, w₃, w₄, body, hw, rfl, hne, hname, hbody⟩ := h
    simp only [List.forall_mem_cons] at hw
    obtain ⟨hw₀, hw₁, hw₂, hw₃, hw₄, hnil⟩ := hw
    refine ⟨w₀, w₁, w₂, name, _, w₄, ?_, rfl, hne, hname, ?_, ?_, hw₄⟩
    · simp only [List.forall_mem_cons]
      exact ⟨hw₀, hw₁, hw₂, hnil⟩
    · exact stops_isWordChar_append hw₃ fun _ => stops_cons.mpr (by decide)
    · rw [skipBlanks_run hw₃ (stops_cons.mpr hquote), readDefined_eq_ok_text_iff]
      exact ⟨rfl, rfl, Quoted.scan_eq_some_iff.mpr ⟨[], body, blanks_nil, hbody, rfl⟩⟩

theorem parse_inclusion_iff :
    parse line = .ok (.inclusion argument) ↔ Includes line argument := by
  rw [parse_eq_ok_iff_readDirective (by simp)]
  refine ⟨fun h => ?_, fun h => ?_⟩
  · obtain ⟨w₀, t, rest, hw₀, rfl, hread, -⟩ := h
    rw [readDirective_eq_ok_iff, Word.scan_skipBlanks] at hread
    obtain ⟨-, _, _, -, hdefined⟩ | ⟨hword, hst, -⟩ := hread
    · obtain ⟨_, h⟩ | ⟨_, h⟩ := exists_of_readDefined hdefined <;> cases h
    · cases hst
      obtain ⟨w₁, hw₁, ht⟩ := Word.exists_blanks_append_scan t
      obtain ⟨w₂, hw₂, hrest⟩ := exists_blanks_append_skipBlanks (Word.scan t).2
      refine ⟨w₀, w₁, w₂, by simp [hw₀, hw₁, hw₂], ?_, ?_, stops_skipBlanks _⟩
      · rw [← hrest, ← hword, ← ht]
      · rw [← hrest]
        exact Word.stops_scan t
  · obtain ⟨w₀, w₁, w₂, hw, rfl, hstop, hargument⟩ := h
    simp only [List.forall_mem_cons] at hw
    obtain ⟨hw₀, hw₁, hw₂, -⟩ := hw
    refine ⟨w₀, _, [], hw₀, rfl, ?_, blanks_nil⟩
    rw [readDirective_eq_ok_iff, Word.scan_skipBlanks, Word.scan_run hw₁ isWord_include hstop,
      skipBlanks_run hw₂ hargument]
    exact .inr ⟨rfl, rfl, rfl⟩

/-- The grammar of directives is accepted exactly. -/
theorem parse_directive_iff (line : Text) :
    (∀ name value, parse line = .ok (.defineInteger name value) ↔
      DefinesInteger line name value) ∧
    (∀ name value, parse line = .ok (.defineText name value) ↔ DefinesText line name value) ∧
    (∀ argument, parse line = .ok (.inclusion argument) ↔ Includes line argument) :=
  ⟨fun _ _ => parse_defineInteger_iff, fun _ _ => parse_defineText_iff,
    fun _ => parse_inclusion_iff⟩

example : parse "#define X-5".toList = .ok (.defineInteger "X".toList (-5)) := by decide

end MaterialText.Statement
