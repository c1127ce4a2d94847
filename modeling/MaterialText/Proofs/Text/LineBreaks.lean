import MaterialText.Proofs.Text.Runs

namespace MaterialText

variable {s t l rest : Text} {c : Char}

def NoBreaks (s : Text) : Prop := ∀ c ∈ s, isLineBreak c = false

instance (s : Text) : Decidable (NoBreaks s) :=
  decidable_of_iff (s.all (!isLineBreak ·) = true) (by simp [NoBreaks])

def IsTerminator (t : Text) : Prop := t ∈ [['\r', '\n'], ['\n'], ['\r']]

theorem isTerminator_iff : IsTerminator t ↔ t = ['\r', '\n'] ∨ t = ['\n'] ∨ t = ['\r'] := by
  simp [IsTerminator]

@[simp]
theorem noBreaks_append : NoBreaks (s ++ t) ↔ NoBreaks s ∧ NoBreaks t := List.forall_mem_append

@[simp]
theorem noBreaks_cons : NoBreaks (c :: s) ↔ isLineBreak c = false ∧ NoBreaks s :=
  List.forall_mem_cons

theorem NoBreaks.suffix (h : NoBreaks s) (ht : t <:+ s) : NoBreaks t :=
  fun c hc => h c (ht.subset hc)

@[simp]
theorem noBreaks_nil : NoBreaks [] := List.forall_mem_nil _

theorem Visible.noBreaks (h : Visible s) : NoBreaks s := by
  intro c hc
  have hvisible := h c hc
  apply Bool.eq_false_iff.mpr
  intro hbreak
  simp only [isLineBreak, Bool.or_eq_true, beq_iff_eq] at hbreak
  rcases hbreak with rfl | rfl
  · exact absurd hvisible (by decide)
  · exact absurd hvisible (by decide)

theorem IsWord.noBreaks (h : IsWord s) : NoBreaks s := h.visible.noBreaks

theorem firstLine_run (hl : NoBreaks l) (hs : Stops (!isLineBreak ·) s) :
    firstLine (l ++ s) = l ∧ afterFirstLine (l ++ s) = s := by
  have hrun : ∀ c ∈ l, (!isLineBreak c) = true := by
    intro c hc
    rw [hl c hc]
    rfl
  exact ⟨takeWhile_run hrun hs, dropWhile_run hrun hs⟩

/-- A lone carriage return ends a line unless a line feed follows, which would end it too. -/
theorem dropTerminator_append (ht : IsTerminator t)
    (h : t = ['\r'] → rest.head? ≠ some '\n') : dropTerminator (t ++ rest) = rest := by
  rcases isTerminator_iff.mp ht with rfl | rfl | rfl
  · rfl
  · rfl
  · cases rest with
    | nil => rfl
    | cons c rest =>
      have hc : c ≠ '\n' := by simpa using h rfl
      simp only [List.cons_append, List.nil_append]
      unfold dropTerminator
      split
      · rename_i heq
        cases heq
      · rename_i heq
        cases heq
        exact absurd rfl hc
      · rename_i heq
        exact (List.cons.inj heq).2.symm

theorem mem_dropTerminator_iff (hc : isLineBreak c = false) (hs : Stops (!isLineBreak ·) s) :
    c ∈ dropTerminator s ↔ c ∈ s := by
  have hne {d : Char} (hd : isLineBreak d = true) : c ≠ d := by
    rintro rfl
    rw [hc] at hd
    cases hd
  have hreturn : c ≠ '\r' := hne rfl
  have hfeed : c ≠ '\n' := hne rfl
  unfold dropTerminator
  split
  · rfl
  · simp [hreturn, hfeed]
  · have hd := hne (by simpa using stops_cons.mp hs)
    simp [hd]

theorem IsTerminator.exists_cons (ht : IsTerminator t) : ∃ c u, t = c :: u ∧ isLineBreak c = true := by
  rcases isTerminator_iff.mp ht with rfl | rfl | rfl
  · exact ⟨'\r', ['\n'], rfl, rfl⟩
  · exact ⟨'\n', [], rfl, rfl⟩
  · exact ⟨'\r', [], rfl, rfl⟩

theorem lines_append (hl : NoBreaks l) (ht : IsTerminator t)
    (h : t = ['\r'] → rest.head? ≠ some '\n') : lines (l ++ (t ++ rest)) = l :: lines rest := by
  obtain ⟨c, u, hcu, hc⟩ := ht.exists_cons
  have hne : l ++ (t ++ rest) ≠ [] := by simp [hcu]
  have hstop : Stops (!isLineBreak ·) (t ++ rest) := by
    rw [hcu, List.cons_append, stops_cons, hc]
    rfl
  obtain ⟨hfirst, hafter⟩ := firstLine_run hl hstop
  rw [lines, if_neg hne, hfirst, hafter, dropTerminator_append ht h]

theorem lines_cons (hc : isLineBreak c = false) (s : Text) :
    lines (c :: s) = (c :: (lines s).headD []) :: (lines s).tail := by
  have hfirst : firstLine (c :: s) = c :: firstLine s := by simp [firstLine, hc]
  have hafter : afterFirstLine (c :: s) = afterFirstLine s := by simp [afterFirstLine, hc]
  rw [lines, if_neg (List.cons_ne_nil c s), hfirst, hafter]
  by_cases hs : s = []
  · subst hs
    simp [firstLine, afterFirstLine, dropTerminator]
  · rw [lines.eq_1 s, if_neg hs]
    rfl

theorem lines_of_noBreaks (hl : NoBreaks l) (hne : l ≠ []) : lines l = [l] := by
  obtain ⟨hfirst, hafter⟩ := firstLine_run hl stops_nil
  rw [List.append_nil] at hfirst hafter
  rw [lines, if_neg hne, hfirst, hafter, dropTerminator, lines_nil]

theorem mem_lines_iff (hc : isLineBreak c = false) : (∃ line ∈ lines s, c ∈ line) ↔ c ∈ s := by
  fun_induction lines s with
  | case1 => simp
  | case2 s hs ih =>
    have hdrop : c ∈ dropTerminator (afterFirstLine s) ↔ c ∈ afterFirstLine s :=
      mem_dropTerminator_iff hc (stops_dropWhile _ s)
    simp only [List.mem_cons, exists_eq_or_imp]
    rw [ih, hdrop, ← List.mem_append, firstLine_append]

end MaterialText
