import Mathlib.Tactic.IntervalCases
import MaterialText.Proofs.Text.Runs
import MaterialText.Text.Quoted

namespace MaterialText.Quoted

variable {s w body value rest : Text} {letter c : Char}

def controlLetters : List (Char × Char) :=
  [('a', '\x07'), ('b', '\x08'), ('f', '\x0c'), ('n', '\n'), ('r', '\r'), ('t', '\t'), ('v', '\x0b')]

/-- A character after a backslash stands for the control character of its letter, or for itself. -/
inductive Escape : Char → Char → Prop
  | control {letter c : Char} (h : (letter, c) ∈ controlLetters) : Escape letter c
  | itself {c : Char} (h : ∀ p ∈ controlLetters, p.1 ≠ c) : Escape c c

/-- What may stand between two quotes, and what it says. -/
inductive Body : Text → Text → Prop
  | nil : Body [] []
  | plain {c : Char} {body value : Text} (hq : c ≠ '"') (hb : c ≠ '\\') (h : Body body value) :
      Body (c :: body) (c :: value)
  | escaped {letter c : Char} {body value : Text} (hc : Escape letter c) (h : Body body value) :
      Body ('\\' :: letter :: body) (c :: value)

theorem denoted_of_controlLetters (h : (letter, c) ∈ controlLetters) : denoted letter = c := by
  simp only [controlLetters, List.mem_cons, Prod.mk.injEq, List.not_mem_nil, or_false] at h
  rcases h with h | h | h | h | h | h | h <;> obtain ⟨rfl, rfl⟩ := h <;> rfl

theorem denoted_of_forall_ne (h : ∀ p ∈ controlLetters, p.1 ≠ c) : denoted c = c := by
  simp only [controlLetters, List.forall_mem_cons, List.not_mem_nil] at h
  unfold denoted
  split <;> simp_all

theorem escape_iff : Escape letter c ↔ denoted letter = c := by
  refine ⟨fun h => ?_, fun h => ?_⟩
  · cases h with
    | control h => exact denoted_of_controlLetters h
    | itself h => exact denoted_of_forall_ne h
  · subst h
    by_cases h : ∃ p ∈ controlLetters, p.1 = letter
    · obtain ⟨p, hp, rfl⟩ := h
      rw [denoted_of_controlLetters hp]
      exact .control hp
    -- Any other letter, a quote and a backslash among them, is kept.
    · have hne : ∀ p ∈ controlLetters, p.1 ≠ letter := fun p hp he => h ⟨p, hp, he⟩
      rw [denoted_of_forall_ne hne]
      exact .itself hne

theorem body_run (h : Body body value) (rest : Text) :
    Quoted.body (body ++ '"' :: rest) = some (value, rest) := by
  induction h with
  | nil => rfl
  | @plain c body value hq hb h ih =>
    have hstep : Quoted.body (c :: (body ++ '"' :: rest)) =
        (Quoted.body (body ++ '"' :: rest)).map fun p => (c :: p.1, p.2) := by
      rw [Quoted.body] <;> simp_all
    rw [List.cons_append, hstep, ih]
    rfl
  | @escaped letter c body value hc h ih =>
    rw [List.cons_append, List.cons_append, Quoted.body, ih, Option.map_some, escape_iff.mp hc]

theorem exists_of_body (h : Quoted.body s = some (value, rest)) :
    ∃ body, Body body value ∧ s = body ++ '"' :: rest := by
  fun_induction Quoted.body s generalizing value with
  | case1 => cases h
  | case2 after =>
    cases h
    exact ⟨[], .nil, rfl⟩
  | case3 letter after ih =>
    obtain ⟨p, hp, h⟩ := Option.map_eq_some_iff.mp h
    cases h
    obtain ⟨body, hbody, rfl⟩ := ih hp
    exact ⟨'\\' :: letter :: body, .escaped (escape_iff.mpr rfl) hbody, rfl⟩
  | case4 => cases h
  | case5 c after hq hpair hb ih =>
    obtain ⟨p, hp, h⟩ := Option.map_eq_some_iff.mp h
    cases h
    obtain ⟨body, hbody, rfl⟩ := ih hp
    exact ⟨c :: body, .plain hq hb hbody, rfl⟩

/-- What stands between the quotes is a body, and any body is read whole. -/
theorem scan_eq_some_iff : scan s = some (value, rest) ↔
    ∃ w body, Blanks w ∧ Body body value ∧ s = w ++ '"' :: (body ++ '"' :: rest) := by
  refine ⟨fun h => ?_, fun h => ?_⟩
  · obtain ⟨t, ht, hb⟩ := Option.bind_eq_some_iff.mp h
    obtain ⟨w, hw, hs⟩ := exists_blanks_append_skipBlanks s
    obtain ⟨body, hbody, rfl⟩ := exists_of_body hb
    rw [Text.eat_eq_some_iff.mp ht] at hs
    exact ⟨w, body, hw, hbody, hs⟩
  · obtain ⟨w, body, hw, hbody, rfl⟩ := h
    have hq : isBlank '"' = false := by decide
    simp [scan, hw, hq, body_run hbody]

theorem body_of_escape (s : Text) : Body (escape s) s := by
  induction s with
  | nil => exact .nil
  | cons c s ih =>
    have hs : escape (c :: s) = escapeChar c ++ escape s := rfl
    rw [hs, escapeChar]
    cases h : escapeLetter c with
    | some letter => exact .escaped (escape_iff.mpr (denoted_of_escapeLetter h)) ih
    | none =>
      obtain ⟨hq, hb⟩ := ne_of_escapeLetter_eq_none h
      exact .plain hq hb ih

/-- Every character from the bell to the carriage return is written as a letter. -/
theorem escapeLetter_ne_none (h₀ : 0x07 ≤ c.toNat) (h₁ : c.toNat ≤ 0x0d) : escapeLetter c ≠ none := by
  rw [← Char.ofNat_toNat c]
  generalize c.toNat = n at h₀ h₁
  interval_cases n <;> decide

theorem toNat_of_escapeLetter (h : escapeLetter c = some letter) : 0x0d < letter.toNat := by
  unfold escapeLetter at h
  split at h <;> cases h <;> decide

theorem control_not_mem_escape (h : c ∈ escape s) : c.toNat < 0x07 ∨ 0x0d < c.toNat := by
  obtain ⟨a, -, hc⟩ := List.mem_flatMap.mp h
  rw [escapeChar] at hc
  cases ha : escapeLetter a with
  | none =>
    rw [ha, List.mem_singleton] at hc
    rw [hc]
    by_contra hcontrol
    exact escapeLetter_ne_none (by omega) (by omega) ha
  | some letter =>
    rw [ha] at hc
    simp only [List.mem_cons, List.not_mem_nil, or_false] at hc
    rcases hc with rfl | rfl
    · decide
    · exact .inr (toNat_of_escapeLetter ha)

end MaterialText.Quoted
