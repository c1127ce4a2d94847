import MaterialText.Json.View
import MaterialText.Proofs.Single.FixedPoint

namespace MaterialText.Json
open Numeral

/-- Where a reader of JSON text stands: outside of string literals, within one, or there after a
backslash. -/
inductive Zone
  | outside | inside | escaped
deriving DecidableEq

/-- A zone, and the brackets that are open, the innermost first. -/
structure Place where
  zone : Zone := .outside
  opened : Text := []
deriving DecidableEq

def isOpening (c : Char) : Bool := c == '[' || c == '\x7b'

def isClosing (c : Char) : Bool := c == ']' || c == '\x7d'

/-- The place after one more character. Within a literal only a quote that no backslash takes counts. -/
def Place.next (p : Place) (c : Char) : Place :=
  match p.zone with
  | .escaped => { p with zone := .inside }
  | .inside =>
    if c = '\\' then { p with zone := .escaped }
    else if c = '"' then { p with zone := .outside } else p
  | .outside =>
    if c = '"' then { p with zone := .inside }
    else if isOpening c then { p with opened := c :: p.opened }
    else if isClosing c then { p with opened := p.opened.tail } else p

def Place.after (p : Place) (s : Text) : Place := s.foldl Place.next p

def isLayout (c : Char) : Bool := c == ' ' || c == '\n'

/-- A text, read from a place on, without the spaces and new lines outside of string literals. -/
def Place.squeeze (p : Place) : Text → Text
  | [] => []
  | c :: s =>
    if p.zone = .outside ∧ isLayout c = true then (p.next c).squeeze s
    else c :: (p.next c).squeeze s

/-- A new line at a place, and what follows it: it is in no literal and in no list of numbers, and the
next line begins two spaces deep for each open bracket, the one that it closes apart. -/
structure BreaksAt (p : Place) (rest : Text) : Prop where
  outside : p.zone = .outside
  not_within : ∀ outer, p.opened = '[' :: outer → outer = []
  indented : ∃ k c t, rest = List.replicate (2 * k) ' ' ++ c :: t ∧ isLayout c = false ∧
    k + (if isClosing c then 1 else 0) = p.opened.length

/-- A text from one place to another, all its new lines being as deep as they have to be, and what is
left of it without its layout. -/
structure Lays (p : Place) (squeezed s : Text) (q : Place) : Prop where
  after : p.after s = q
  squeeze : p.squeeze s = squeezed
  breaks : ∀ front rest, s = front ++ '\n' :: rest → BreaksAt (p.after front) rest

variable {p q r : Place} {c : Char} {s t u v : Text} {o : Text} {k : Nat}

@[simp]
theorem Place.after_append (p : Place) (s t : Text) : p.after (s ++ t) = (p.after s).after t :=
  List.foldl_append

@[simp]
theorem Place.squeeze_append (p : Place) (s t : Text) :
    p.squeeze (s ++ t) = p.squeeze s ++ (p.after s).squeeze t := by
  induction s generalizing p with
  | nil => rfl
  | cons c s ih =>
    simp only [List.cons_append, squeeze, ih]
    split <;> rfl

theorem Place.next_of_isLayout (ho : p.zone = .outside) (hc : isLayout c = true) : p.next c = p := by
  obtain rfl | rfl : c = ' ' ∨ c = '\n' := by simpa [isLayout] using hc
  · simp [next, ho, isOpening, isClosing]
  · simp [next, ho, isOpening, isClosing]

theorem Place.not_outside_of_squeeze (p : Place) (s : Text) {front rest : Text}
    (h : p.squeeze s = front ++ c :: rest) (hc : isLayout c = true) :
    (p.after front).zone ≠ .outside := by
  induction s generalizing p front with
  | nil => simp [squeeze] at h
  | cons d s ih =>
    rw [squeeze] at h
    split at h
    · rename_i hd
      rw [next_of_isLayout hd.1 hd.2] at h
      exact ih p h
    · rename_i hd
      cases front with
      | nil =>
        obtain ⟨rfl, -⟩ := List.cons.inj h
        exact fun ho => hd ⟨ho, hc⟩
      | cons e front =>
        obtain ⟨rfl, htail⟩ := List.cons.inj h
        exact ih (p.next d) htail

theorem BreaksAt.append (h : BreaksAt p s) (t : Text) : BreaksAt p (s ++ t) := by
  obtain ⟨k, c, rest, rfl, hc, hk⟩ := h.indented
  exact ⟨h.outside, h.not_within, k, c, rest ++ t, by simp, hc, hk⟩

namespace Lays

theorem nil (p : Place) : Lays p [] [] p := ⟨rfl, rfl, fun _ _ h => by simp at h⟩

theorem append (h : Lays p t s q) (h' : Lays q u v r) : Lays p (t ++ u) (s ++ v) r := by
  refine ⟨?_, ?_, fun front rest hsplit => ?_⟩
  · rw [Place.after_append, h.after, h'.after]
  · rw [Place.squeeze_append, h.squeeze, h.after, h'.squeeze]
  · obtain ⟨w, rfl, hv⟩ | ⟨w, rfl, hw⟩ := List.append_eq_append_iff.mp hsplit
    -- The new line is in the second text.
    · rw [Place.after_append, h.after]
      exact h'.breaks w rest hv
    -- It is in the first, or it is where the second begins.
    · cases w with
      | nil =>
        rw [List.append_nil] at h
        rw [h.after]
        exact h'.breaks [] rest hw.symm
      | cons c w =>
        obtain ⟨rfl, rfl⟩ := List.cons.inj hw
        exact (h.breaks front w rfl).append v

theorem keep (hc : p.zone = .outside → isLayout c = false) (hn : c ≠ '\n') :
    Lays p [c] [c] (p.next c) := by
  refine ⟨rfl, ?_, fun front rest h => ?_⟩
  · rw [Place.squeeze, if_neg fun ho => by rw [hc ho.1] at ho; cases ho.2]
    rfl
  · cases front with
    | nil => exact absurd (List.cons.inj h).1 hn
    | cons d front => simp at h

theorem spaces (n : Nat) : Lays ⟨.outside, o⟩ [] (List.replicate n ' ') ⟨.outside, o⟩ := by
  have hnext : Place.next ⟨.outside, o⟩ ' ' = ⟨.outside, o⟩ := Place.next_of_isLayout rfl rfl
  induction n with
  | zero => exact nil _
  | succ n ih =>
    refine ⟨?_, ?_, fun front rest h => ?_⟩
    · rw [List.replicate_succ, Place.after, List.foldl_cons, hnext]
      exact ih.after
    · rw [List.replicate_succ, Place.squeeze, if_pos ⟨rfl, rfl⟩, hnext]
      exact ih.squeeze
    · have hmem : '\n' ∈ List.replicate (n + 1) ' ' := by simp [h]
      exact absurd (List.eq_of_mem_replicate hmem) (by decide)

theorem newline (h : Lays ⟨.outside, o⟩ t (c :: s) q) (hc : isLayout c = false)
    (hk : k + (if isClosing c then 1 else 0) = o.length)
    (ho : ∀ outer, o = '[' :: outer → outer = []) :
    Lays ⟨.outside, o⟩ t (Style.newline .pretty k ++ c :: s) q := by
  have hrest := (spaces (2 * k)).append h
  have hnext : Place.next ⟨.outside, o⟩ '\n' = ⟨.outside, o⟩ := Place.next_of_isLayout rfl rfl
  rw [Style.newline, List.cons_append]
  refine ⟨?_, ?_, fun front rest hsplit => ?_⟩
  · rw [Place.after, List.foldl_cons, hnext]
    exact hrest.after
  · rw [Place.squeeze, if_pos ⟨rfl, rfl⟩, hnext]
    exact hrest.squeeze
  · cases front with
    | nil =>
      obtain ⟨-, rfl⟩ := List.cons.inj hsplit
      exact ⟨rfl, ho, k, c, s, rfl, hc, hk⟩
    | cons d front =>
      obtain ⟨rfl, htail⟩ := List.cons.inj hsplit
      have hbreak := hrest.breaks front rest htail
      rwa [Place.after, List.foldl_cons, hnext]

theorem intercalate {separator separator' : Text} {ts ss : List Text}
    (hsep : Lays p separator separator' p) (h : List.Forall₂ (fun t s => Lays p t s p) ts ss) :
    Lays p (List.intercalate separator ts) (List.intercalate separator' ss) p := by
  induction h with
  | nil => exact nil p
  | cons ht hrest ih =>
    cases hrest with
    | nil =>
      rw [List.intercalate_singleton, List.intercalate_singleton]
      exact ht
    | cons =>
      rw [List.intercalate_cons_cons, List.intercalate_cons_cons]
      exact (ht.append hsep).append ih

end Lays

/-- A character that a reader passes outside of literals without a change of place, layout apart. -/
def isPlain (c : Char) : Bool := c != '"' && !isOpening c && !isClosing c && !isLayout c

def Plain (s : Text) : Prop := ∀ c ∈ s, isPlain c = true

@[simp]
theorem plain_append : Plain (s ++ t) ↔ Plain s ∧ Plain t := List.forall_mem_append

@[simp]
theorem plain_cons : Plain (c :: s) ↔ isPlain c = true ∧ Plain s := List.forall_mem_cons

theorem isPlain_of_isDigit (h : c.isDigit = true) : isPlain c = true := by
  have hne (d : Char) (hd : d.isDigit = false) : c ≠ d := by
    rintro rfl
    rw [h] at hd
    cases hd
  simp [isPlain, isOpening, isClosing, isLayout, hne]

theorem lays_outside (hc : isLayout c = false) :
    Lays ⟨.outside, o⟩ [c] [c] (Place.next ⟨.outside, o⟩ c) := by
  refine Lays.keep (fun _ => hc) ?_
  rintro rfl
  cases hc

theorem lays_plain (h : Plain s) : Lays ⟨.outside, o⟩ s s ⟨.outside, o⟩ := by
  induction s with
  | nil => exact .nil _
  | cons c s ih =>
    obtain ⟨hc, hs⟩ := plain_cons.mp h
    simp only [isPlain, Bool.and_eq_true, bne_iff_ne, Bool.not_eq_true'] at hc
    obtain ⟨⟨⟨hquote, hopening⟩, hclosing⟩, hlayout⟩ := hc
    have hnext : Place.next ⟨.outside, o⟩ c = ⟨.outside, o⟩ := by
      simp [Place.next, hquote, hopening, hclosing]
    have hhead := lays_outside (o := o) hlayout
    rw [hnext] at hhead
    exact hhead.append (ih hs)

theorem lays_opening (hc : isOpening c = true) :
    Lays ⟨.outside, o⟩ [c] [c] ⟨.outside, c :: o⟩ := by
  obtain rfl | rfl : c = '[' ∨ c = '\x7b' := by simpa [isOpening] using hc
  · exact lays_outside rfl
  · exact lays_outside rfl

theorem lays_closing {d : Char} (hc : isClosing c = true) :
    Lays ⟨.outside, d :: o⟩ [c] [c] ⟨.outside, o⟩ := by
  obtain rfl | rfl : c = ']' ∨ c = '\x7d' := by simpa [isClosing] using hc
  · exact lays_outside rfl
  · exact lays_outside rfl

theorem lays_inside (hq : c ≠ '"') (hb : c ≠ '\\') (hn : c ≠ '\n') :
    Lays ⟨.inside, o⟩ [c] [c] ⟨.inside, o⟩ := by
  have hnext : Place.next ⟨.inside, o⟩ c = ⟨.inside, o⟩ := by simp [Place.next, hq, hb]
  have h := Lays.keep (p := ⟨.inside, o⟩) (c := c) nofun hn
  rwa [hnext] at h

theorem lays_escaped (hn : c ≠ '\n') : Lays ⟨.inside, o⟩ ['\\', c] ['\\', c] ⟨.inside, o⟩ :=
  (Lays.keep (p := ⟨.inside, o⟩) (c := '\\') nofun (by decide)).append
    (Lays.keep (p := ⟨.escaped, o⟩) (c := c) nofun hn)

theorem lays_escapeChar (c : Char) : Lays ⟨.inside, o⟩ (escapeChar c) (escapeChar c) ⟨.inside, o⟩ := by
  have hdigit (n : Nat) (h : n < 16) :
      Lays ⟨.inside, o⟩ [n.digitChar] [n.digitChar] ⟨.inside, o⟩ := by
    have hne : n.digitChar ≠ '"' ∧ n.digitChar ≠ '\\' ∧ n.digitChar ≠ '\n' := by
      revert n
      decide
    exact lays_inside hne.1 hne.2.1 hne.2.2
  rw [escapeChar]
  cases hl : escapeLetter c with
  | some letter =>
    refine lays_escaped ?_
    rintro rfl
    unfold escapeLetter at hl
    split at hl <;> cases hl
  | none =>
    have hne : c ≠ '"' ∧ c ≠ '\\' ∧ c ≠ '\n' := by
      refine ⟨?_, ?_, ?_⟩ <;> rintro rfl <;> cases hl
    dsimp only
    split
    · have hzero : Lays ⟨.inside, o⟩ ['0'] ['0'] ⟨.inside, o⟩ := hdigit 0 (by decide)
      have hhigh := hdigit (c.toNat / 16) (by omega)
      have hlow := hdigit (c.toNat % 16) (Nat.mod_lt _ (by decide))
      exact (lays_escaped (by decide)).append (hzero.append (hzero.append (hhigh.append hlow)))
    · exact lays_inside hne.1 hne.2.1 hne.2.2

theorem lays_writeString (s : Text) :
    Lays ⟨.outside, o⟩ (writeString s) (writeString s) ⟨.outside, o⟩ := by
  have hopen : Lays ⟨.outside, o⟩ ['"'] ['"'] ⟨.inside, o⟩ := lays_outside rfl
  have hclose : Lays ⟨.inside, o⟩ ['"'] ['"'] ⟨.outside, o⟩ := Lays.keep nofun (by decide)
  have hbody : Lays ⟨.inside, o⟩ (s.flatMap escapeChar) (s.flatMap escapeChar) ⟨.inside, o⟩ := by
    induction s with
    | nil => exact .nil _
    | cons c s ih => exact (lays_escapeChar c).append ih
  exact (hopen.append hbody).append hclose

def Field.IsPlain : Field → Prop
  | .number numeral => Plain numeral
  | .string _ => True
  | .numbers numerals => ∀ numeral ∈ numerals, Plain numeral

def Record.IsPlain (r : Record) : Prop := ∀ member ∈ r, member.2.IsPlain

theorem lays_gap : Lays ⟨.outside, o⟩ (Style.gap .compact) (Style.gap .pretty) ⟨.outside, o⟩ :=
  Lays.spaces 1

theorem lays_comma : Lays ⟨.outside, o⟩ [','] [','] ⟨.outside, o⟩ := lays_outside rfl

theorem lays_writeField {f : Field} (h : f.IsPlain) :
    Lays ⟨.outside, o⟩ (writeField .compact f) (writeField .pretty f) ⟨.outside, o⟩ := by
  cases f with
  | number numeral => exact lays_plain h
  | string s => exact lays_writeString s
  | numbers numerals =>
    have hnumerals := Lays.intercalate (p := ⟨.outside, '[' :: o⟩) (lays_comma.append lays_gap)
      (List.forall₂_same.mpr fun numeral hmem => lays_plain (h numeral hmem))
    exact ((lays_opening rfl).append hnumerals).append (lays_closing rfl)

theorem lays_writeMember {member : Text × Field} (h : member.2.IsPlain) :
    Lays ⟨.outside, o⟩ (writeMember .compact member) (writeMember .pretty member) ⟨.outside, o⟩ := by
  have hcolon : Lays ⟨.outside, o⟩ [':'] [':'] ⟨.outside, o⟩ := lays_outside rfl
  exact ((lays_writeString member.1).append (hcolon.append lays_gap)).append (lays_writeField h)

theorem lays_writeRecord {r : Record} (h : r.IsPlain) :
    Lays ⟨.outside, ['[']⟩ (writeRecord .compact r) (writeRecord .pretty r) ⟨.outside, ['[']⟩ := by
  have hmember : ∀ member ∈ r, Lays ⟨.outside, ['\x7b', '[']⟩
      (Style.newline .compact 2 ++ writeMember .compact member)
      (Style.newline .pretty 2 ++ writeMember .pretty member) ⟨.outside, ['\x7b', '[']⟩ :=
    fun member hmem => Lays.newline (lays_writeMember (h member hmem)) rfl rfl nofun
  have hclose : Lays ⟨.outside, ['\x7b', '[']⟩ (Style.newline .compact 1 ++ ['\x7d'])
      (Style.newline .pretty 1 ++ ['\x7d']) ⟨.outside, ['[']⟩ :=
    Lays.newline (lays_closing rfl) rfl rfl nofun
  have hmembers := Lays.intercalate lays_comma
    (List.forall₂_map_left_iff.mpr (List.forall₂_map_right_iff.mpr (List.forall₂_same.mpr hmember)))
  have hall := ((lays_opening rfl).append hmembers).append hclose
  simpa only [writeRecord, List.append_assoc, List.cons_append, List.nil_append] using hall

theorem lays_write {records : List Record} (h : ∀ r ∈ records, r.IsPlain) :
    Lays {} (write .compact records) (write .pretty records) {} := by
  have hentry : ∀ r ∈ records, Lays ⟨.outside, ['[']⟩
      (Style.newline .compact 1 ++ writeRecord .compact r)
      (Style.newline .pretty 1 ++ writeRecord .pretty r) ⟨.outside, ['[']⟩ :=
    fun r hmem => Lays.newline (lays_writeRecord (h r hmem)) rfl rfl (by simp)
  have hentries := Lays.intercalate lays_comma
    (List.forall₂_map_left_iff.mpr (List.forall₂_map_right_iff.mpr (List.forall₂_same.mpr hentry)))
  have hclose : Lays ⟨.outside, ['[']⟩
      ((if records = [] then [] else Style.newline .compact 0) ++ [']'])
      ((if records = [] then [] else Style.newline .pretty 0) ++ [']']) {} := by
    split
    · exact lays_closing rfl
    · exact Lays.newline (lays_closing rfl) rfl rfl (by simp)
  have hall := ((lays_opening (c := '[') rfl).append hentries).append hclose
  simpa only [write, List.append_assoc, List.cons_append, List.nil_append] using hall

end Json

open Json Numeral

theorem plain_of_forall_isDigit {s : Text} (h : ∀ c ∈ s, c.isDigit = true) : Plain s :=
  fun c hc => isPlain_of_isDigit (h c hc)

theorem plain_decimal (n : Nat) : Plain (decimal n) :=
  plain_of_forall_isDigit fun _ => isDigit_of_mem_decimal

theorem Integer.plain_text (i : Int64) : Plain (text i) := by
  rw [text]
  split
  · exact plain_cons.mpr ⟨rfl, plain_decimal _⟩
  · exact plain_decimal _

theorem Single.plain_text (x : Single) : Plain x.text := by
  have hplaces : Plain (places 6 (x.millionths % tenPow 6)) :=
    plain_of_forall_isDigit (digits_places (Nat.mod_lt _ (by decide)))
  have hfixed : Plain (fixedText x.millionths) :=
    plain_append.mpr ⟨plain_decimal _, plain_cons.mpr ⟨rfl, hplaces⟩⟩
  have hnan : Plain "NaN".toList := List.all_eq_true.mp rfl
  have hinf : Plain "inf".toList := List.all_eq_true.mp rfl
  have hmagnitude : Plain (if x.isFinite then fixedText x.millionths else "inf".toList) := by
    split
    · exact hfixed
    · exact hinf
  rw [text]
  split
  · exact hnan
  · dsimp only
    split
    · exact plain_cons.mpr ⟨rfl, hmagnitude⟩
    · exact hmagnitude

theorem Statement.isPlain_record (st : Statement) (index : Nat) : (st.record index).IsPlain := by
  cases st <;>
    simp [Record.IsPlain, Field.IsPlain, record, fields, plain_decimal, Integer.plain_text,
      Single.plain_text]

/-- The pretty text without the spaces and new lines outside of string literals is the compact text,
which has none, and every new line of the pretty text is outside of literals and of lists of numbers and
as deep as brackets are open. -/
theorem Document.json_layout (d : Document) :
    Place.squeeze {} (d.json .pretty) = d.json .compact ∧
    (∀ front c rest, d.json .compact = front ++ c :: rest → isLayout c = true →
      (Place.after {} front).zone ≠ .outside) ∧
    ∀ front rest, d.json .pretty = front ++ '\n' :: rest → BreaksAt (Place.after {} front) rest := by
  have hplain : ∀ r ∈ d.statements.zipIdx.map fun p => p.1.record p.2, r.IsPlain := by
    intro r hr
    obtain ⟨p, -, rfl⟩ := List.mem_map.mp hr
    exact p.1.isPlain_record p.2
  have hlays := lays_write hplain
  refine ⟨hlays.squeeze, fun front c rest h hc => ?_, hlays.breaks⟩
  exact Place.not_outside_of_squeeze {} (d.json .pretty) (hlays.squeeze.trans h) hc

end MaterialText
