import MaterialText.Document.Basic
import MaterialText.Proofs.Statement.Constant
import MaterialText.Proofs.Statement.Directive
import MaterialText.Proofs.Text.LineBreaks

namespace MaterialText

namespace Statement

variable {line name s rest : Text} {type : FloatType} {st : Statement} {c : Constant}

/-- What holds of the parts of every statement that stands in a text. -/
def WellFormed : Statement → Prop
  | .verbatim line => NoBreaks line
  | .defineText name _ => IsWord name ∧ NoBreaks name
  | .defineInteger name _ => IsWord name ∧ NoBreaks name
  | .constant c => IsWord c.name ∧ NoBreaks c.name ∧ 1 ≤ c.values.length ∧ c.values.length ≤ 4 ∧
      ∀ v ∈ c.values, v.isFinite = true
  | .inclusion argument => Stops isBlank argument ∧ NoBreaks argument

/-- What a line is read as, or the line itself if it cannot be read. -/
inductive Represents (line : Text) : Statement → Prop
  | recognized {st : Statement} (h : parse line = .ok st) (hst : st.isVerbatim = false) :
      Represents line st
  | kept {e : Diagnostic} (h : parse line = .error e) : Represents line (.verbatim line)

theorem represents_ofLine (line : Text) : Represents line (ofLine line) := by
  unfold ofLine
  cases h : parse line with
  | error e => exact .kept h
  | ok st =>
    refine .recognized h ?_
    cases st with
    | verbatim => exact absurd h parse_ne_verbatim
    | _ => rfl

theorem wellFormed_of_parse (hline : NoBreaks line) (h : parse line = .ok st) : WellFormed st := by
  cases st with
  | verbatim => exact absurd h parse_ne_verbatim
  | defineText name value =>
    have hname := (parse_defineText_iff.mp h).isWord
    exact ⟨hname, hname.noBreaks⟩
  | defineInteger name value =>
    have hname := (parse_defineInteger_iff.mp h).isWord
    exact ⟨hname, hname.noBreaks⟩
  | constant c =>
    obtain ⟨hname, hfinite⟩ := (parse_constant_iff_declares.mp h).spec
    have hlen : 1 ≤ c.values.length ∧ c.values.length ≤ 4 := by
      rw [c.length_values]
      cases c.type <;> decide
    exact ⟨hname, hname.noBreaks, hlen.1, hlen.2, hfinite⟩
  | inclusion argument =>
    obtain ⟨hargument, hpart⟩ := (parse_inclusion_iff.mp h).spec
    exact ⟨hargument, hline.suffix hpart⟩

theorem wellFormed_ofLine (hline : NoBreaks line) : WellFormed (ofLine line) := by
  unfold ofLine
  cases h : parse line with
  | error e => exact hline
  | ok st => exact wellFormed_of_parse hline h

def readValues (type : FloatType) (s : Text) : Except Failure (List Single × Text) :=
  if "float".toList.isPrefixOf s then
    let word := Word.scan s
    if word.1 = type.name then do
      let afterParen ← readChar '(' word.2
      let components ← readComponents afterParen
      if components.1.length = type.dimension then .ok components
      else .error ⟨.componentCount type.name type.dimension components.1.length, s⟩
    else .error ⟨.constructorMismatch type.name word.1, s⟩
  else (readFloat s).map fun p => (List.replicate type.dimension p.1, p.2)

/-- A declaration whose constant is made of the values at the end, where their number could be
refused. -/
def constructConstant (s : Text) : Except (Refusal ⊕ Failure) (Statement × Text) :=
  let word := Word.scan s
  match FloatType.ofName? word.1 with
  | none => .error (.inr ⟨.unknownType word.1, skipBlanks s⟩)
  | some type => do
    let name ← (readName word.2).mapError .inr
    let afterEquals ← (readChar '=' name.2).mapError .inr
    let values ← (readValues type (skipBlanks afterEquals)).mapError .inr
    let rest ← (readChar ';' values.2).mapError .inr
    let c ← (Constant.ofValues name.1 values.1).mapError .inl
    .ok (.constant c, rest)

def constructStart (line : Text) : Except (Refusal ⊕ Failure) (Statement × Text) :=
  match Text.eat '#' (skipBlanks line) with
  | some rest => (readDirective (skipBlanks rest)).mapError .inr
  | none =>
    let word := Word.scan line
    if word.1 = "const".toList then constructConstant word.2
    else .error (.inr ⟨.unrecognized, line⟩)

def constructWhole (line : Text) : Except (Refusal ⊕ Failure) Statement := do
  let p ← constructStart line
  if skipBlanks p.2 = [] then .ok p.1 else .error (.inr ⟨.trailingText, skipBlanks p.2⟩)

theorem ofValues_values (c : Constant) : Constant.ofValues c.name c.values = .ok c :=
  Constant.ofValues_eq_ok c.length_values

theorem readValues_eq (name : Text) (type : FloatType) (s : Text) :
    readValues type s = (readValue name type s).map fun p => (p.1.values, p.2) := by
  unfold readValues readValue readVector
  split
  · dsimp only
    split
    · cases readChar '(' (Word.scan s).2 with
      | error f => rfl
      | ok after =>
        simp only [bind, Except.bind]
        cases readComponents after with
        | error f => rfl
        | ok components =>
          by_cases hlen : components.1.length = type.dimension
          · simp only [hlen, if_true, dif_pos, Except.map]
          · simp only [hlen, if_false, dif_neg, Except.map, not_false_eq_true]
    · rfl
  · cases readFloat s <;> rfl

theorem mapError_bind {ε ε' α β : Type} {x : Except ε α} {f : ε → ε'} {g : α → Except ε β}
    {g' : α → Except ε' β} (h : ∀ a, x = .ok a → g' a = (g a).mapError f) :
    x.mapError f >>= g' = (x >>= g).mapError f := by
  cases x with
  | error e => rfl
  | ok a => exact h a rfl

/-- The number of values is never refused: it is the dimension of the declared type. -/
theorem constructConstant_eq (s : Text) :
    constructConstant s = (readConstant s).mapError .inr := by
  unfold constructConstant readConstant
  dsimp only
  cases FloatType.ofName? (Word.scan s).1 with
  | none => rfl
  | some type =>
    refine mapError_bind fun name _ => mapError_bind fun equals _ => ?_
    rw [readValues_eq name.1]
    cases hvalue : readValue name.1 type (skipBlanks equals) with
    | error f => rfl
    | ok p =>
      obtain ⟨_, -, hname, -, -⟩ := exists_of_readValue (stops_skipBlanks equals) hvalue
      change (readChar ';' p.2).mapError Sum.inr >>= _ =
        (readChar ';' p.2 >>= fun rest => .ok (Statement.constant p.1, rest)).mapError Sum.inr
      refine mapError_bind fun rest _ => ?_
      rw [← hname, ofValues_values]
      rfl

theorem constructStart_eq (line : Text) :
    constructStart line = (readStart line).mapError .inr := by
  unfold constructStart readStart
  cases Text.eat '#' (skipBlanks line) with
  | some rest => rfl
  | none =>
    simp only [constructConstant_eq]
    split <;> rfl

theorem constructWhole_eq (line : Text) :
    constructWhole line = (readWhole line).mapError .inr := by
  rw [constructWhole, constructStart_eq]
  refine mapError_bind fun p _ => ?_
  split <;> rfl

end Statement

namespace Document
open Statement

/-- A text is read as one well-formed statement for each of its lines, in order, and no line gives a
constant a number of values that it cannot have. -/
theorem parse_wellFormed (s : Text) :
    List.Forall₂ Represents (lines s) (parse s).statements ∧
    (∀ st ∈ (parse s).statements, WellFormed st) ∧
    ∀ line, constructWhole line = (readWhole line).mapError .inr := by
  refine ⟨?_, ?_, constructWhole_eq⟩
  · rw [parse, List.forall₂_map_right_iff, List.forall₂_same]
    intro line _
    exact represents_ofLine line
  · intro st hst
    obtain ⟨line, hline, rfl⟩ := List.mem_map.mp hst
    exact wellFormed_ofLine (not_isLineBreak_of_mem_lines hline)

end Document
end MaterialText
