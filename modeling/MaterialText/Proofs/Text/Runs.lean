import MaterialText.Text.Lines
import MaterialText.Text.Word

namespace MaterialText

/-- The text does not go on with a character of the kind. -/
def Stops (p : Char → Bool) (s : Text) : Prop := ∀ c ∈ s.head?, p c = false

def Blanks (w : Text) : Prop := ∀ c ∈ w, isBlank c = true

variable {p q : Char → Bool} {s t w run rest : Text} {c : Char}

@[simp]
theorem stops_nil : Stops p [] := by simp [Stops]

@[simp]
theorem stops_cons : Stops p (c :: s) ↔ p c = false := by simp [Stops]

theorem Stops.mono (h : Stops p s) (hpq : ∀ c, q c = true → p c = true) : Stops q s := by
  intro c hc
  exact Bool.eq_false_iff.mpr fun hq => Bool.eq_false_iff.mp (h c hc) (hpq c hq)

theorem stops_append (hne : run ≠ []) : Stops p (run ++ rest) ↔ Stops p run := by
  cases run with
  | nil => exact absurd rfl hne
  | cons c run => simp only [List.cons_append, stops_cons]

theorem stops_run_append (h : ∀ c ∈ run, p c = false) (hr : Stops p rest) :
    Stops p (run ++ rest) := by
  cases run with
  | nil => exact hr
  | cons c run => exact stops_cons.mpr (h c (by simp))

@[simp]
theorem stops_dropWhile (p : Char → Bool) (s : Text) : Stops p (s.dropWhile p) := by
  intro c hc
  have h := List.head?_dropWhile_not p s
  rw [Option.mem_def.mp hc] at h
  simpa using h

@[simp]
theorem takeWhile_run (h : ∀ c ∈ run, p c = true) (hr : Stops p rest) :
    (run ++ rest).takeWhile p = run := by
  rw [List.takeWhile_append_of_pos h]
  cases rest with
  | nil => simp
  | cons c rest => simp [stops_cons.mp hr]

@[simp]
theorem dropWhile_run (h : ∀ c ∈ run, p c = true) (hr : Stops p rest) :
    (run ++ rest).dropWhile p = rest := by
  rw [List.dropWhile_append_of_pos h]
  cases rest with
  | nil => rfl
  | cons c rest => simp [stops_cons.mp hr]

theorem of_mem_takeWhile (h : c ∈ s.takeWhile p) : p c = true :=
  List.all_eq_true.mp List.all_takeWhile c h

def AtMostOne (p : Char → Bool) (t : Text) : Prop := t = [] ∨ ∃ c, p c = true ∧ t = [c]

@[simp]
theorem dropOne_run (ht : AtMostOne p t) (hr : t = [] → Stops p rest) :
    Text.dropOne p (t ++ rest) = rest := by
  obtain rfl | ⟨c, hc, rfl⟩ := ht
  · cases rest with
    | nil => rfl
    | cons c rest => simp [Text.dropOne, stops_cons.mp (hr rfl)]
  · simp [Text.dropOne, hc]

/-- At most one character of a kind, and one if there is one, and what follows it. -/
def Once (p : Char → Bool) (t rest : Text) : Prop := AtMostOne p t ∧ (t = [] → Stops p rest)

theorem exists_once (p : Char → Bool) (s : Text) : ∃ t rest, s = t ++ rest ∧ Once p t rest := by
  cases s with
  | nil => exact ⟨[], [], rfl, .inl rfl, fun _ => stops_nil⟩
  | cons c s =>
    by_cases hc : p c = true
    · exact ⟨[c], s, rfl, .inr ⟨c, hc, rfl⟩, fun h => by cases h⟩
    · exact ⟨[], c :: s, rfl, .inl rfl, fun _ => stops_cons.mpr (Bool.eq_false_iff.mpr hc)⟩

theorem Once.unique (h : Once p run rest) (hs : Once p s t) (he : run ++ rest = s ++ t) :
    run = s ∧ rest = t := by
  have hdrop := dropOne_run h.1 h.2
  rw [he, dropOne_run hs.1 hs.2] at hdrop
  subst hdrop
  exact ⟨List.append_cancel_right he, rfl⟩

theorem exists_append_dropOne (p : Char → Bool) (s : Text) :
    ∃ t, AtMostOne p t ∧ s = t ++ Text.dropOne p s := by
  obtain ⟨t, rest, rfl, ht, hrest⟩ := exists_once p s
  exact ⟨t, ht, by rw [dropOne_run ht hrest]⟩

theorem stops_atMostOne_append (ht : AtMostOne p t) (hpq : ∀ c, p c = true → q c = false)
    (hr : t = [] → Stops q rest) : Stops q (t ++ rest) := by
  obtain rfl | ⟨c, hc, rfl⟩ := ht
  · exact hr rfl
  · exact stops_cons.mpr (hpq c hc)

/-- A run of a kind that is as long as it can be, and what follows it. -/
def Run (p : Char → Bool) (run rest : Text) : Prop := (∀ c ∈ run, p c = true) ∧ Stops p rest

theorem exists_run (p : Char → Bool) (s : Text) : ∃ run rest, s = run ++ rest ∧ Run p run rest :=
  ⟨s.takeWhile p, s.dropWhile p, List.takeWhile_append_dropWhile.symm, fun _ => of_mem_takeWhile,
    stops_dropWhile p s⟩

theorem Run.unique (h : Run p run rest) (hs : Run p s t) (he : run ++ rest = s ++ t) :
    run = s ∧ rest = t := by
  have htake := takeWhile_run h.1 h.2
  have hdrop := dropWhile_run h.1 h.2
  rw [he, takeWhile_run hs.1 hs.2] at htake
  rw [he, dropWhile_run hs.1 hs.2] at hdrop
  exact ⟨htake.symm, hdrop.symm⟩

theorem Run.eq_nil_iff (h : Run p run rest) : run = [] ↔ Stops p (run ++ rest) := by
  refine ⟨fun hnil => ?_, fun hs => ?_⟩
  · rw [hnil]
    exact h.2
  · cases run with
    | nil => rfl
    | cons c run =>
      have hc := h.1 c (by simp)
      rw [stops_cons.mp hs] at hc
      cases hc

@[simp]
theorem blanks_nil : Blanks [] := by simp [Blanks]

@[simp]
theorem blanks_space : Blanks [' '] := by
  intro c hc
  rw [List.mem_singleton.mp hc]
  decide

theorem Blanks.append (hw : Blanks w) (ht : Blanks t) : Blanks (w ++ t) := by
  intro c hc
  rcases List.mem_append.mp hc with hc | hc
  · exact hw c hc
  · exact ht c hc

@[simp]
theorem skipBlanks_run (hw : Blanks w) (hs : Stops isBlank s) : skipBlanks (w ++ s) = s :=
  dropWhile_run hw hs

@[simp]
theorem skipBlanks_stops (hs : Stops isBlank s) : skipBlanks s = s := skipBlanks_run blanks_nil hs

@[simp]
theorem stops_skipBlanks (s : Text) : Stops isBlank (skipBlanks s) := stops_dropWhile isBlank s

theorem exists_blanks_append_skipBlanks (s : Text) : ∃ w, Blanks w ∧ s = w ++ skipBlanks s :=
  ⟨s.takeWhile isBlank, fun _ => of_mem_takeWhile, List.takeWhile_append_dropWhile.symm⟩

theorem skipBlanks_eq_nil_iff : skipBlanks s = [] ↔ Blanks s := by
  refine ⟨fun h => ?_, fun h => ?_⟩
  · obtain ⟨w, hw, hs⟩ := exists_blanks_append_skipBlanks s
    rw [h, List.append_nil] at hs
    exact hs ▸ hw
  · have hs := skipBlanks_run h (stops_nil (p := isBlank))
    rwa [List.append_nil] at hs

theorem isAlphanum_iff : c.isAlphanum = true ↔ (65 ≤ c.toNat ∧ c.toNat ≤ 90) ∨
    (97 ≤ c.toNat ∧ c.toNat ≤ 122) ∨ (48 ≤ c.toNat ∧ c.toNat ≤ 57) := by
  have h : c.isAlphanum = ((decide (65 ≤ c.val ∧ c.val ≤ 90) ||
      decide (97 ≤ c.val) && decide (c.val ≤ 122)) ||
        decide (48 ≤ c.val) && decide (c.val ≤ 57)) := rfl
  rw [h]
  simp only [Bool.or_eq_true, Bool.and_eq_true, decide_eq_true_eq, or_assoc,
    UInt32.le_iff_toNat_le]
  rfl

/-- No character of a word is blank: the two kinds share no code point. -/
theorem not_isBlank_of_isWordChar (h : isWordChar c = true) : isBlank c = false := by
  have hn : c.isAlphanum = true ∨ c.toNat = 0x5f := by
    simp only [isWordChar, Bool.or_eq_true, beq_iff_eq] at h
    exact h.imp_right fun h => by rw [h]; rfl
  rw [isAlphanum_iff] at hn
  simp only [isBlank, Bool.or_eq_false_iff, Bool.and_eq_false_iff, decide_eq_false_iff_not,
    beq_eq_false_iff_ne]
  omega

/-- No control character and no space. -/
def Visible (s : Text) : Prop := ∀ c ∈ s, 0x20 < c.toNat

@[simp]
theorem visible_append : Visible (s ++ t) ↔ Visible s ∧ Visible t := List.forall_mem_append

@[simp]
theorem visible_cons : Visible (c :: s) ↔ 0x20 < c.toNat ∧ Visible s := List.forall_mem_cons

@[simp]
theorem visible_nil : Visible [] := List.forall_mem_nil _

theorem visible_of_forall_isWordChar (h : ∀ c ∈ s, isWordChar c = true) : Visible s := by
  intro c hc
  have hword := h c hc
  simp only [isWordChar, Bool.or_eq_true, beq_iff_eq] at hword
  rcases hword with hword | rfl
  · rw [isAlphanum_iff] at hword
    omega
  · decide

theorem visible_of_forall_isDigit (h : ∀ c ∈ s, c.isDigit = true) : Visible s :=
  visible_of_forall_isWordChar fun c hc => by simp [isWordChar, Char.isAlphanum, h c hc]

theorem IsWord.visible (h : IsWord s) : Visible s := visible_of_forall_isWordChar h.2

/-- A blank ends a run of what is not blank, and without one what follows has to. -/
theorem stops_blanks_append (hp : ∀ c, p c = true → isBlank c = false) (hw : Blanks w)
    (h : w = [] → Stops p s) : Stops p (w ++ s) := by
  by_cases hne : w = []
  · rw [hne, List.nil_append]
    exact h hne
  · rw [stops_append hne]
    intro c hc
    have hb := hw c (List.mem_of_mem_head? hc)
    exact Bool.eq_false_iff.mpr fun hpc => Bool.eq_false_iff.mp (hp c hpc) hb

theorem stops_isWordChar_append (hw : Blanks w) (h : w = [] → Stops isWordChar s) :
    Stops isWordChar (w ++ s) :=
  stops_blanks_append (fun _ => not_isBlank_of_isWordChar) hw h

theorem stops_isWordChar_of_blanks (hw : Blanks w) : Stops isWordChar w := by
  have h := stops_isWordChar_append hw fun _ => stops_nil
  rwa [List.append_nil] at h

theorem not_stops_word_append (h : IsWord run) (rest : Text) : ¬Stops isWordChar (run ++ rest) := by
  rw [stops_append h.1]
  intro hs
  obtain ⟨c, t, rfl⟩ := List.exists_cons_of_ne_nil h.1
  have hc := h.2 c (by simp)
  rw [stops_cons.mp hs] at hc
  cases hc

/-- A word followed by no character of a word, after blanks, is read whole. -/
@[simp]
theorem Word.scan_run (hw : Blanks w) (h : IsWord run) (hr : Stops isWordChar rest) :
    Word.scan (w ++ (run ++ rest)) = (run, rest) := by
  have hs : Stops isBlank (run ++ rest) := by
    rw [stops_append h.1]
    intro c hc
    exact not_isBlank_of_isWordChar (h.2 c (List.mem_of_mem_head? hc))
  rw [Word.scan, skipBlanks_run hw hs, takeWhile_run h.2 hr, dropWhile_run h.2 hr]

theorem Word.exists_blanks_append_scan (s : Text) :
    ∃ w, Blanks w ∧ s = w ++ ((Word.scan s).1 ++ (Word.scan s).2) := by
  obtain ⟨w, hw, hs⟩ := exists_blanks_append_skipBlanks s
  exact ⟨w, hw, by rw [Word.scan_append]; exact hs⟩

@[simp]
theorem Word.scan_skipBlanks (s : Text) : Word.scan (skipBlanks s) = Word.scan s := by
  simp only [Word.scan, skipBlanks_skipBlanks]

@[simp]
theorem Word.stops_scan (s : Text) : Stops isWordChar (Word.scan s).2 := stops_dropWhile _ _

theorem Word.scan_fst_eq_iff (h : IsWord run) : (Word.scan s).1 = run ↔
    ∃ w rest, Blanks w ∧ s = w ++ (run ++ rest) ∧ Stops isWordChar rest := by
  refine ⟨fun hscan => ?_, fun hs => ?_⟩
  · obtain ⟨w, hw, hs⟩ := Word.exists_blanks_append_scan s
    rw [hscan] at hs
    exact ⟨w, _, hw, hs, Word.stops_scan s⟩
  · obtain ⟨w, rest, hw, rfl, hr⟩ := hs
    simp [hw, h, hr]

end MaterialText
