import Mathlib.Algebra.Group.Nat.Even
import MaterialText.Proofs.Text.QuotedBody

namespace MaterialText.Quoted

variable {s t u body value rest : Text} {c : Char}

def backslashes (s : Text) : Nat := (s.reverse.takeWhile (· == '\\')).length

/-- A quote after this text closes it. -/
def Closes (body : Text) : Prop := Even (backslashes body)

/-- A quote after this text closes it, and no quote in it does. -/
structure ClosesFirst (body : Text) : Prop where
  closes : Closes body
  before : ∀ b t, body = b ++ '"' :: t → ¬Closes b

/-- A quote stands between `body` and `rest`, after the one that opens the text and blanks before it. -/
def Parts (s body rest : Text) : Prop := ∃ w, Blanks w ∧ s = w ++ '"' :: (body ++ '"' :: rest)

theorem backslashes_append (u s : Text) : backslashes (u ++ s) =
    if backslashes s = s.length then backslashes u + backslashes s else backslashes s := by
  have happend : backslashes (u ++ s) = ((s.reverse ++ u.reverse).takeWhile (· == '\\')).length := by
    rw [backslashes, List.reverse_append]
  rw [happend, List.takeWhile_append]
  by_cases h : (s.reverse.takeWhile (· == '\\')).length = s.reverse.length
  · have hall : backslashes s = s.length := h.trans List.length_reverse
    rw [if_pos h, if_pos hall, List.length_append, List.length_reverse, Nat.add_comm, hall]
    rfl
  · have hall : backslashes s ≠ s.length := fun hs => h (hs.trans List.length_reverse.symm)
    rw [if_neg h, if_neg hall]
    rfl

theorem closes_append_iff (h : Closes u) : Closes (u ++ s) ↔ Closes s := by
  rw [Closes, Closes, backslashes_append]
  split
  · exact Nat.even_add.trans (iff_true_left h)
  · rfl

theorem closes_nil : Closes [] := ⟨0, rfl⟩

theorem not_closes_backslash : ¬Closes ['\\'] := Nat.not_even_one

theorem closes_cons_iff (h : c ≠ '\\') : Closes (c :: s) ↔ Closes s := by
  have hc : Closes [c] := by simp [Closes, backslashes, h]
  exact closes_append_iff hc

/-- A backslash takes the next character with it, a backslash or not. -/
theorem closes_pair_iff : Closes ('\\' :: c :: s) ↔ Closes s := by
  have hc : Closes ['\\', c] := by
    by_cases h : c = '\\'
    · rw [h]
      exact ⟨1, rfl⟩
    · simp [Closes, backslashes, h]
  exact closes_append_iff hc

/-- A body is read from the left, and backslashes are counted back from a quote. -/
theorem Body.closesFirst (h : Body body value) : ClosesFirst body := by
  induction h with
  | nil => exact ⟨closes_nil, fun b t h => by simp at h⟩
  | @plain c body value hq hb h ih =>
    refine ⟨(closes_cons_iff hb).mpr ih.closes, fun b t hbt => ?_⟩
    cases b with
    | nil => exact absurd (List.cons.inj hbt).1 hq
    | cons d b =>
      obtain ⟨rfl, hrest⟩ := List.cons.inj hbt
      rw [closes_cons_iff hb]
      exact ih.before b t hrest
  | @escaped letter c body value hc h ih =>
    refine ⟨closes_pair_iff.mpr ih.closes, fun b t hbt => ?_⟩
    match b, hbt with
    | [d], hbt =>
      obtain ⟨rfl, -⟩ := List.cons.inj hbt
      exact not_closes_backslash
    | d :: d' :: b, hbt =>
      obtain ⟨rfl, hrest⟩ := List.cons.inj hbt
      rw [closes_pair_iff]
      exact ih.before b t (List.cons.inj hrest).2

theorem exists_body_of_closesFirst (h : ClosesFirst body) : ∃ value, Body body value := by
  induction body using Quoted.body.induct with
  | case1 => exact ⟨[], .nil⟩
  | case2 rest => exact absurd closes_nil (h.before [] rest rfl)
  | case3 c rest ih =>
    obtain ⟨value, hvalue⟩ := ih ⟨closes_pair_iff.mp h.closes, fun b t hbt hclose =>
      h.before ('\\' :: c :: b) t (by rw [hbt]; rfl) (closes_pair_iff.mpr hclose)⟩
    exact ⟨_, .escaped (escape_iff.mpr rfl) hvalue⟩
  | case4 rest hq hpair =>
    cases rest with
    | nil => exact absurd h.closes not_closes_backslash
    | cons c rest => exact absurd rfl (hpair c rest rfl)
  | case5 c rest hq hpair hb ih =>
    obtain ⟨value, hvalue⟩ := ih ⟨(closes_cons_iff hb).mp h.closes, fun b t hbt hclose =>
      h.before (c :: b) t (by rw [hbt]; rfl) ((closes_cons_iff hb).mpr hclose)⟩
    exact ⟨_, .plain hq hb hvalue⟩

theorem exists_body_iff : (∃ value, Body body value) ↔ ClosesFirst body :=
  ⟨fun ⟨_, h⟩ => h.closesFirst, exists_body_of_closesFirst⟩

theorem exists_closesFirst (h : Closes body) (rest : Text) :
    ∃ b t, body ++ '"' :: rest = b ++ '"' :: t ∧ ClosesFirst b := by
  induction hn : body.length using Nat.strong_induction_on generalizing body rest with
  | h n ih =>
    by_cases hbefore : ∀ b t, body = b ++ '"' :: t → ¬Closes b
    · exact ⟨body, rest, rfl, h, hbefore⟩
    -- A quote in the text closes it, so the first one that does stands before it.
    · push Not at hbefore
      obtain ⟨b, t, rfl, hb⟩ := hbefore
      have hlt : b.length < n := by simp [← hn]
      obtain ⟨b', t', ht, hb'⟩ := ih b.length hlt hb (t ++ '"' :: rest) rfl
      exact ⟨b', t', by rw [← ht, List.append_assoc, List.cons_append], hb'⟩

theorem exists_scan_eq_some_iff : (∃ value, scan s = some (value, rest)) ↔
    ∃ body, Parts s body rest ∧ ClosesFirst body := by
  simp only [scan_eq_some_iff, ← exists_body_iff, Parts]
  refine ⟨fun h => ?_, fun h => ?_⟩
  · obtain ⟨value, w, body, hw, hbody, hs⟩ := h
    exact ⟨body, ⟨w, hw, hs⟩, value, hbody⟩
  · obtain ⟨body, ⟨w, hw, hs⟩, value, hbody⟩ := h
    exact ⟨value, w, body, hw, hbody, hs⟩

theorem scan_eq_none_iff : scan s = none ↔ ∀ body rest, Parts s body rest → ¬Closes body := by
  refine ⟨fun h body rest hparts hclose => ?_, fun h => ?_⟩
  · obtain ⟨w, hw, rfl⟩ := hparts
    obtain ⟨b, t, ht, hb⟩ := exists_closesFirst hclose rest
    obtain ⟨value, hvalue⟩ := exists_scan_eq_some_iff.mpr ⟨b, ⟨w, hw, rfl⟩, hb⟩
    rw [ht, hvalue] at h
    cases h
  · cases hscan : scan s with
    | none => rfl
    | some p =>
      obtain ⟨body, hparts, hbody⟩ := exists_scan_eq_some_iff.mp ⟨p.1, hscan⟩
      exact absurd hbody.closes (h body p.2 hparts)

/-- What escaping wrote is read back after blanks and whatever follows, and it holds no control
character that has a letter. In any text the closing quote is the first that can be. -/
theorem scan_closing_quote :
    (∀ v w rest, Blanks w → scan (w ++ '"' :: (escape v ++ '"' :: rest)) = some (v, rest)) ∧
    (∀ v, ∀ c ∈ escape v, c.toNat < 0x07 ∨ 0x0d < c.toNat) ∧
    ∀ s, (scan s = none ↔ ∀ body rest, Parts s body rest → ¬Closes body) ∧
      ∀ rest, (∃ value, scan s = some (value, rest)) ↔
        ∃ body, Parts s body rest ∧ ClosesFirst body := by
  refine ⟨fun v w rest hw => ?_, fun v c => control_not_mem_escape, fun s => ⟨scan_eq_none_iff,
    fun rest => exists_scan_eq_some_iff⟩⟩
  rw [scan, skipBlanks_append w _ hw]
  exact scan_escape v rest

example : scan "\"\\\\\" and \"".toList = some ("\\".toList, " and \"".toList) := by decide

end MaterialText.Quoted
