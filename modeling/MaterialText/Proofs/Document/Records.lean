import Mathlib.Data.List.Forall2
import MaterialText.Log

namespace MaterialText.Log

variable {c : Char} {s t : Text} {st : Statement}

/-- How a character stands in quoted text. -/
inductive Shown : Char → Text → Prop
  | quote : Shown '"' ['\\', '"']
  | backslash : Shown '\\' ['\\', '\\']
  | tab : Shown '\t' ['\\', 't']
  | newline : Shown '\n' ['\\', 'n']
  | carriageReturn : Shown '\r' ['\\', 'r']
  | null : Shown '\x00' ['\\', '0']
  | coded {c : Char} (hc : Text.isCoded c = true) (hne : c ∉ ['\t', '\n', '\r', '\x00']) :
      Shown c ("\\u\x7b".toList ++ Nat.toDigits 16 c.toNat ++ ['\x7d'])
  | plain {c : Char} (hc : Text.isCoded c = false) (hne : c ∉ ['"', '\\']) : Shown c [c]

/-- `t` shows `s` character by character, between two quotes. -/
def Quotation (s t : Text) : Prop :=
  ∃ pieces : List Text, List.Forall₂ Shown s pieces ∧ t = '"' :: pieces.flatten ++ ['"']

/-- What a record tells of a recognised statement: its kind and its fields, texts in quotes and
numbers in digits. -/
inductive Tells : Statement → Text → Prop
  | defineText {name value n v : Text} (hname : Quotation name n) (hvalue : Quotation value v) :
      Tells (.defineText name value)
        ("StringDefine \x7b name: ".toList ++ n ++ ", value: ".toList ++ v ++ " \x7d".toList)
  | defineInteger {name n : Text} {value : Int64} (hname : Quotation name n) :
      Tells (.defineInteger name value)
        ("IntegerDefine \x7b name: ".toList ++ n ++ ", value: ".toList ++ Integer.text value ++
          " \x7d".toList)
  | constant {c : Constant} {n : Text} (hname : Quotation c.name n) :
      Tells (.constant c)
        ("Float(FloatConst \x7b name: ".toList ++ n ++ ", values: [".toList ++
          List.intercalate ", ".toList (c.values.map Single.shortestText) ++ "] \x7d)".toList)
  | inclusion {argument a : Text} (hargument : Quotation argument a) :
      Tells (.inclusion argument) ("Include(".toList ++ a ++ [')'])

theorem shownLetter_eq_none_iff :
    shownLetter c = none ↔ c ∉ ['\t', '\n', '\r', '\x00'] ∧ c ∉ ['"', '\\'] := by
  unfold shownLetter
  split <;> simp_all

theorem shown_of_shownLetter {letter : Char} (h : shownLetter c = some letter) :
    Shown c ['\\', letter] := by
  unfold shownLetter at h
  split at h <;> cases h <;> constructor

theorem shown_showChar (c : Char) : Shown c (showChar c) := by
  unfold showChar
  cases hletter : shownLetter c with
  | some letter => exact shown_of_shownLetter hletter
  | none =>
    obtain ⟨hcontrol, hquote⟩ := shownLetter_eq_none_iff.mp hletter
    cases hcoded : Text.isCoded c with
    | true => exact .coded hcoded hcontrol
    | false => exact .plain hcoded hquote

/-- Of the first 128 characters only the controls are shown by their code. -/
theorem isCoded_of_lt (h : c.toNat < 128) :
    Text.isCoded c = decide (c.toNat < 32 ∨ c.toNat = 127) := by
  -- The first two ranges are controls, and all others lie higher.
  have hlow : Text.codedRanges.take 2 = [(0, 0x1f), (0x7f, 0xa0)] := by rfl
  have hhigh : ∀ r ∈ Text.codedRanges.drop 2, 128 ≤ r.1 := by decide +kernel
  have hrest : (Text.codedRanges.drop 2).any (fun r => r.1 ≤ c.toNat ∧ c.toNat ≤ r.2) = false := by
    refine List.any_eq_false.mpr fun r hr => ?_
    have hr := hhigh r hr
    simp only [decide_eq_true_eq]
    omega
  rw [Text.isCoded, ← List.take_append_drop 2 Text.codedRanges, List.any_append, hrest, hlow]
  simp only [List.any_cons, List.any_nil, Bool.or_false, ← Bool.decide_or, decide_eq_decide]
  omega

theorem isCoded_of_shownLetter {letter : Char} (h : shownLetter c = some letter) :
    Text.isCoded c = decide (c ∈ ['\t', '\n', '\r', '\x00']) := by
  unfold shownLetter at h
  split at h <;> first | exact (isCoded_of_lt (by decide)).trans (by decide) | cases h

theorem showChar_of_shown (h : Shown c t) : t = showChar c := by
  cases h with
  | coded hc hne =>
    cases hletter : shownLetter c with
    | some letter =>
      rw [isCoded_of_shownLetter hletter, decide_eq_true_eq] at hc
      exact absurd hc hne
    | none => simp only [showChar, hletter, hc, if_true]
  | plain hc hne =>
    cases hletter : shownLetter c with
    | some letter =>
      rw [isCoded_of_shownLetter hletter, decide_eq_false_iff_not] at hc
      exact absurd (shownLetter_eq_none_iff.mpr ⟨hc, hne⟩) (by simp [hletter])
    | none => simp only [showChar, hletter, hc, Bool.false_eq_true, if_false]
  | _ => rfl

theorem shown_iff : Shown c t ↔ t = showChar c :=
  ⟨showChar_of_shown, fun h => h ▸ shown_showChar c⟩

theorem quotation_iff : Quotation s t ↔ t = showText s := by
  have hpieces {pieces : List Text} : List.Forall₂ Shown s pieces ↔ s.map showChar = pieces := by
    rw [← List.forall₂_eq_eq_eq, List.forall₂_map_left_iff]
    exact ⟨.imp fun c t h => (shown_iff.mp h).symm, .imp fun c t h => shown_iff.mpr h.symm⟩
  constructor
  · rintro ⟨pieces, hshown, rfl⟩
    rw [showText, List.flatMap_def, hpieces.mp hshown]
  · rintro rfl
    exact ⟨s.map showChar, hpieces.mpr rfl, by rw [showText, List.flatMap_def]⟩

example : Quotation ['e', '\u0301', '\u00a0', '"']
    "\"e\\u\x7b301\x7d\\u\x7ba0\x7d\\\"\"".toList :=
  quotation_iff.mpr (by decide +kernel)

theorem tells_iff : Tells st t ↔ st.isVerbatim = false ∧ t = showStatement st := by
  constructor
  · rintro (⟨hname, hvalue⟩ | hname | hname | hargument)
    · rw [quotation_iff.mp hname, quotation_iff.mp hvalue]
      exact ⟨rfl, rfl⟩
    · rw [quotation_iff.mp hname]
      exact ⟨rfl, rfl⟩
    · rw [quotation_iff.mp hname]
      exact ⟨rfl, rfl⟩
    · rw [quotation_iff.mp hargument]
      exact ⟨rfl, rfl⟩
  · rintro ⟨hst, rfl⟩
    cases st with
    | verbatim => cases hst
    | defineText => exact .defineText (quotation_iff.mpr rfl) (quotation_iff.mpr rfl)
    | defineInteger => exact .defineInteger (quotation_iff.mpr rfl)
    | constant => exact .constant (quotation_iff.mpr rfl)
    | inclusion => exact .inclusion (quotation_iff.mpr rfl)

end MaterialText.Log
