import MaterialText.Json.Writer
import MaterialText.Proofs.Json.Grammar

namespace MaterialText.Json
open FloatLiteral Numeral

variable {s w w' gap : Text} {texts numerals : List Text} {values : List Value}
  {f : Field} {v : Value} {r : Record} {ms : List (Text × Value)} {n : Nat} {c : Char}

/-- A field and the value that it stands for, its numerals being numbers. -/
inductive Field.Means : Field → Value → Prop
  | number {t : Text} {q : ℚ} (h : Number t q) : Means (.number t) (.number t q)
  | string (s : Text) : Means (.string s) (.string s)
  | numbers {numerals : List Text} {values : List Value}
      (h : List.Forall₂ (fun t v => ∃ q, Number t q ∧ v = .number t q) numerals values) :
      Means (.numbers numerals) (.array values)

/-- A record and the members of its object, by the same names in the same order. -/
def Record.Means (r : Record) (ms : List (Text × Value)) : Prop :=
  List.Forall₂ (fun field m => field.1 = m.1 ∧ field.2.Means m.2) r ms

theorem Record.Means.nil : Record.Means [] [] := List.Forall₂.nil

theorem Record.Means.cons {name : Text} (h : f.Means v) (hrest : r.Means ms) :
    Record.Means ((name, f) :: r) ((name, v) :: ms) := List.Forall₂.cons ⟨rfl, h⟩ hrest

@[simp]
theorem space_nil : Space [] := List.forall_mem_nil _

@[simp]
theorem space_gap (style : Style) : Space style.gap := by
  cases style with
  | compact => exact space_nil
  | pretty =>
    intro c hc
    rw [List.mem_singleton.mp hc]
    rfl

theorem space_newline (style : Style) (depth : Nat) : Space (style.newline depth) := by
  cases style with
  | compact => exact space_nil
  | pretty =>
    intro c hc
    rcases List.mem_cons.mp hc with rfl | hc
    · rfl
    · rw [List.eq_of_mem_replicate hc]
      rfl

theorem letter_of_escapeLetter {letter : Char} (h : escapeLetter c = some letter) :
    (letter, c) ∈ letters := by
  unfold escapeLetter at h
  split at h <;> cases h <;> decide

theorem ne_of_escapeLetter_eq_none (h : escapeLetter c = none) : c ≠ '"' ∧ c ≠ '\\' := by
  constructor <;> rintro rfl <;> cases h

theorem code_control (h : n < 0x20) :
    Code ['0', '0', (n / 16).digitChar, (n % 16).digitChar] n := by
  have hdigits : ∀ n < 0x20, ['0', '0', (n / 16).digitChar, (n % 16).digitChar].all
      (isDigitOf 16) = true := by decide
  have hvalue : ∀ n < 0x20,
      Nat.ofDigits 16 (placeValues ['0', '0', (n / 16).digitChar, (n % 16).digitChar]) = n := by
    decide
  have hcode := Code.digits rfl fun c hc =>
    isDigitOf_sixteen_iff.mp (List.all_eq_true.mp (hdigits n h) c hc)
  rwa [hvalue n h] at hcode

theorem character_escapeChar (c : Char) : Character (escapeChar c) c := by
  rw [escapeChar]
  cases h : escapeLetter c with
  | some letter => exact .letter (letter_of_escapeLetter h)
  | none =>
    dsimp only
    split
    · rename_i hcontrol
      have hhigh : ¬IsHighHalf c.toNat := by
        unfold IsHighHalf
        omega
      have hlow : ¬IsLowHalf c.toNat := by
        unfold IsLowHalf
        omega
      have hcode := Character.code (code_control hcontrol) hhigh hlow
      rwa [Char.ofNat_toNat] at hcode
    · obtain ⟨hq, hb⟩ := ne_of_escapeLetter_eq_none h
      exact .plain (by omega) hq hb

theorem characters_escape (s : Text) : Characters (s.flatMap escapeChar) s := by
  induction s with
  | nil => exact .nil
  | cons c s ih => exact .cons (character_escapeChar c) ih

theorem quoted_writeString (s : Text) : Quoted (writeString s) s :=
  ⟨s.flatMap escapeChar, characters_escape s, rfl⟩

/-- Texts of a kind that are joined by commas, each with white space after it, and with white space
around them all. -/
theorem separated_intercalate {α : Type} {P : Text → α → Prop} {as : List α}
    (h : List.Forall₂ P texts as) (hne : texts ≠ []) (hw : Space w) (hgap : Space gap)
    (hw' : Space w') : Separated P (w ++ (List.intercalate (',' :: gap) texts ++ w')) as := by
  induction h generalizing w with
  | nil => exact absurd rfl hne
  | @cons t a texts as ht hrest ih =>
    cases hrest with
    | nil =>
      rw [List.intercalate_singleton]
      exact .one hw ht hw'
    | cons =>
      have h := Separated.more hw ht space_nil (ih (by simp) hgap)
      rw [List.intercalate_cons_cons]
      simpa only [List.cons_append, List.nil_append, List.append_assoc] using h

theorem intercalate_map_append (w : Text) (hne : texts ≠ []) :
    List.intercalate [','] (texts.map fun t => w ++ t) =
      w ++ List.intercalate (',' :: w) texts := by
  induction texts with
  | nil => exact absurd rfl hne
  | cons t texts ih =>
    cases texts with
    | nil => simp only [List.map_cons, List.map_nil, List.intercalate_singleton]
    | cons t' texts =>
      have ih := ih (by simp)
      rw [List.map_cons] at ih
      simp only [List.map_cons, List.intercalate_cons_cons, ih, List.append_assoc, List.cons_append,
        List.nil_append]

theorem derives_writeField (style : Style) (h : f.Means v) :
    Derives (writeField style f) v := by
  cases h with
  | number h => exact .number h
  | string s => exact .string (quoted_writeString s)
  | @numbers numerals values h =>
    by_cases hne : numerals = []
    · subst hne
      cases h
      exact .emptyArray space_nil
    · have hitems : List.Forall₂ Derives numerals values := h.imp fun t v hv => by
        obtain ⟨q, hq, rfl⟩ := hv
        exact .number hq
      have hjoined := separated_intercalate hitems hne space_nil (space_gap style) space_nil
      rw [List.nil_append, List.append_nil] at hjoined
      exact .array hjoined

theorem member_writeMember {m : Text × Value} {field : Text × Field} (style : Style)
    (hname : field.1 = m.1) (h : field.2.Means m.2) : Member Derives (writeMember style field) m := by
  have hmember := Member.pair (quoted_writeString m.1) space_nil (space_gap style)
    (derives_writeField style h)
  rw [writeMember, hname]
  simpa only [List.nil_append, List.append_assoc, List.cons_append] using hmember

theorem derives_writeRecord (style : Style) (h : r.Means ms) :
    Derives (writeRecord style r) (.object ms) := by
  rw [writeRecord]
  by_cases hne : r = []
  · subst hne
    cases h
    exact .emptyObject (space_newline style 1)
  · have hmembers : List.Forall₂ (Member Derives) (r.map (writeMember style)) ms :=
      List.forall₂_map_left_iff.mpr (h.imp fun field m hm => member_writeMember style hm.1 hm.2)
    have htexts : r.map (writeMember style) ≠ [] := List.map_eq_nil_iff.not.mpr hne
    have hjoined := separated_intercalate hmembers htexts (space_newline style 2)
      (space_newline style 2) (space_newline style 1)
    have hmap := intercalate_map_append (style.newline 2) htexts
    rw [List.map_map] at hmap
    rw [← List.append_assoc, ← hmap] at hjoined
    exact .object hjoined

/-- The text of a list of records is an array of their objects. -/
theorem denotes_write {records : List Record} {objects : List (List (Text × Value))}
    (style : Style) (h : List.Forall₂ Record.Means records objects) :
    Denotes (write style records) (.array (objects.map .object)) := by
  refine ⟨[], write style records, [], space_nil, ?_, space_nil, by simp⟩
  rw [write]
  by_cases hne : records = []
  · subst hne
    cases h
    exact .emptyArray space_nil
  · have hitems : List.Forall₂ Derives (records.map (writeRecord style)) (objects.map .object) :=
      List.forall₂_map_left_iff.mpr
        (List.forall₂_map_right_iff.mpr (h.imp fun r ms hm => derives_writeRecord style hm))
    have htexts : records.map (writeRecord style) ≠ [] := List.map_eq_nil_iff.not.mpr hne
    have hjoined := separated_intercalate hitems htexts (space_newline style 1)
      (space_newline style 1) (space_newline style 0)
    have hmap := intercalate_map_append (style.newline 1) htexts
    rw [List.map_map] at hmap
    rw [← List.append_assoc, ← hmap] at hjoined
    rw [if_neg hne]
    exact .array hjoined

end MaterialText.Json
