import Mathlib.Data.List.Basic
import MaterialText.Proofs.Text.LineBreaks

namespace MaterialText

variable {s t l before after rest : Text} {parts parts' : List (Text × Text)}

/-- Lines with what ends them, one after another. -/
def joinedParts (parts : List (Text × Text)) : Text := parts.flatMap fun p => p.1 ++ p.2

/-- Lines and their terminators that make up a text. Only the last terminator may be missing, and then
its line is not empty; a carriage return before a line feed is no terminator of its own. -/
structure Decomposes (s : Text) (parts : List (Text × Text)) : Prop where
  joined : joinedParts parts = s
  noBreaks : ∀ p ∈ parts, NoBreaks p.1
  terminated : ∀ front p back, parts = front ++ p :: back →
    IsTerminator p.2 ∨ (p.2 = [] ∧ p.1 ≠ [] ∧ back = [])
  greedy : ∀ front line back, parts = front ++ (line, ['\r']) :: back →
    (joinedParts back).head? ≠ some '\n'

theorem decomposes_nil_iff : Decomposes s [] ↔ s = [] := by
  refine ⟨fun h => h.joined.symm, fun h => ⟨h.symm, List.forall_mem_nil _, ?_, ?_⟩⟩
  · intro front p back h
    simp at h
  · intro front line back h
    simp at h

theorem decomposes_cons_iff : Decomposes s ((l, t) :: parts) ↔ ∃ rest, s = l ++ (t ++ rest) ∧
    NoBreaks l ∧ (IsTerminator t ∨ (t = [] ∧ l ≠ [] ∧ parts = [])) ∧
      (t = ['\r'] → rest.head? ≠ some '\n') ∧ Decomposes rest parts := by
  have hjoined : joinedParts ((l, t) :: parts) = l ++ (t ++ joinedParts parts) := by
    rw [joinedParts, List.flatMap_cons, List.append_assoc]
    rfl
  -- A condition on every split of the list is one on its head and on every split of the rest.
  constructor
  · intro h
    refine ⟨joinedParts parts, ?_, h.noBreaks _ List.mem_cons_self, h.terminated [] _ parts rfl, ?_,
      rfl, fun p hp => h.noBreaks p (List.mem_cons_of_mem _ hp), ?_, ?_⟩
    · rw [← h.joined, hjoined]
    · rintro rfl
      exact h.greedy [] l parts rfl
    · intro front p back hparts
      exact h.terminated ((l, t) :: front) p back (by rw [hparts]; rfl)
    · intro front line back hparts
      exact h.greedy ((l, t) :: front) line back (by rw [hparts]; rfl)
  · rintro ⟨rest, rfl, hl, ht, hgreedy, h⟩
    refine ⟨by rw [hjoined, h.joined], List.forall_mem_cons.mpr ⟨hl, h.noBreaks⟩, ?_, ?_⟩
    · intro front p back hparts
      cases front with
      | nil =>
        obtain ⟨rfl, rfl⟩ := List.cons.inj hparts
        exact ht
      | cons q front => exact h.terminated front p back (List.cons.inj hparts).2
    · intro front line back hparts
      cases front with
      | nil =>
        obtain ⟨hp, rfl⟩ := List.cons.inj hparts
        rw [h.joined]
        exact hgreedy (Prod.mk.inj hp).2
      | cons q front => exact h.greedy front line back (List.cons.inj hparts).2

theorem dropTerminator_part (ht : IsTerminator t ∨ (t = [] ∧ l ≠ [] ∧ parts = []))
    (hgreedy : t = ['\r'] → rest.head? ≠ some '\n') (h : Decomposes rest parts) :
    dropTerminator (t ++ rest) = rest := by
  obtain ht | ⟨rfl, -, rfl⟩ := ht
  · exact dropTerminator_append ht hgreedy
  · rw [decomposes_nil_iff.mp h]
    rfl

theorem Decomposes.lines_eq (h : Decomposes s parts) : lines s = parts.map Prod.fst := by
  induction parts generalizing s with
  | nil =>
    rw [decomposes_nil_iff.mp h, lines_nil]
    rfl
  | cons p parts ih =>
    obtain ⟨rest, rfl, hl, ht, hgreedy, hrest⟩ := decomposes_cons_iff.mp h
    obtain ht | ⟨hnil, hne, rfl⟩ := ht
    · rw [lines_append hl ht hgreedy, ih hrest]
      rfl
    · rw [hnil, decomposes_nil_iff.mp hrest, List.nil_append, List.append_nil,
        lines_of_noBreaks hl hne]
      rfl

/-- Two decompositions agree part by part, from the first on. -/
theorem Decomposes.unique (h : Decomposes s parts) (h' : Decomposes s parts') : parts = parts' := by
  induction parts generalizing s parts' with
  | nil =>
    have hlines := h.lines_eq
    rw [h'.lines_eq] at hlines
    exact (List.map_eq_nil_iff.mp hlines).symm
  | cons p parts ih =>
    cases parts' with
    | nil =>
      have hlines := h.lines_eq
      rw [h'.lines_eq] at hlines
      cases hlines
    | cons p' parts' =>
      have hlines := h.lines_eq
      rw [h'.lines_eq] at hlines
      have hline : p'.1 = p.1 := (List.cons.inj hlines).1
      obtain ⟨rest, rfl, -, ht, hgreedy, hrest⟩ := decomposes_cons_iff.mp h
      obtain ⟨rest', hs, -, ht', hgreedy', hrest'⟩ := decomposes_cons_iff.mp h'
      rw [hline] at hs
      -- Past the line both texts lose the same terminator.
      have htail : p.2 ++ rest = p'.2 ++ rest' := List.append_cancel_left hs
      have hdrop := dropTerminator_part ht hgreedy hrest
      rw [htail, dropTerminator_part ht' hgreedy' hrest'] at hdrop
      subst hdrop
      have hterminator : p.2 = p'.2 := List.append_cancel_right htail
      rw [Prod.ext hline.symm hterminator, ih hrest hrest']

/-- What starts with a line break starts with the longest terminator that it can. -/
theorem exists_terminator (hne : s ≠ []) (hs : Stops (!isLineBreak ·) s) : ∃ t, IsTerminator t ∧
    s = t ++ dropTerminator s ∧ (t = ['\r'] → (dropTerminator s).head? ≠ some '\n') := by
  unfold dropTerminator
  split
  · exact absurd rfl hne
  · exact ⟨['\r', '\n'], isTerminator_iff.mpr (.inl rfl), rfl, fun h => by cases h⟩
  · rename_i c rest hpair
    have hbreak : isLineBreak c = true := by simpa using stops_cons.mp hs
    have hc : c = '\r' ∨ c = '\n' := by
      simpa only [isLineBreak, Bool.or_eq_true, beq_iff_eq] using hbreak
    refine ⟨[c], ?_, rfl, fun hreturn hhead => ?_⟩
    · rcases hc with rfl | rfl <;> simp [isTerminator_iff]
    · obtain ⟨u, hu⟩ := List.head?_eq_some_iff.mp hhead
      exact hpair u (List.cons.inj hreturn).1 hu

theorem exists_decomposes (s : Text) : ∃ parts, Decomposes s parts := by
  fun_induction lines s with
  | case1 => exact ⟨[], decomposes_nil_iff.mpr rfl⟩
  | case2 s hs ih =>
    obtain ⟨parts, hparts⟩ := ih
    have hl : NoBreaks (firstLine s) := by
      intro c hc
      simpa using of_mem_takeWhile hc
    by_cases hafter : afterFirstLine s = []
    · have hline : firstLine s = s := by
        have happend := firstLine_append s
        rwa [hafter, List.append_nil] at happend
      rw [hline] at hl
      refine ⟨[(s, [])], decomposes_cons_iff.mpr ⟨[], ?_, hl, .inr ⟨rfl, hs, rfl⟩, ?_,
        decomposes_nil_iff.mpr rfl⟩⟩
      · rw [List.append_nil, List.append_nil]
      · intro h
        cases h
    · obtain ⟨t, ht, hsplit, hgreedy⟩ := exists_terminator hafter (stops_dropWhile _ s)
      refine ⟨(firstLine s, t) :: parts, decomposes_cons_iff.mpr ⟨_, ?_, hl, .inl ht, hgreedy,
        hparts⟩⟩
      rw [← hsplit, firstLine_append]

def dropReturn (l : Text) : Text := if l.getLast? = some '\r' then l.dropLast else l

/-- The pieces between line feeds, without one carriage return before each feed. What follows the last
feed is a line if it is not empty. -/
def feedLines (s : Text) : List Text :=
  let pieces := s.splitOn '\n'
  pieces.dropLast.map dropReturn ++ pieces.getLast?.toList.filter (· ≠ [])

theorem feedLines_append (h : '\n' ∉ l) (rest : Text) :
    feedLines (l ++ '\n' :: rest) = dropReturn l :: feedLines rest := by
  have hl : ∀ c ∈ l, (c == '\n') = false := by
    intro c hc
    rw [beq_eq_false_iff_ne]
    rintro rfl
    exact h hc
  have hsplit : (l ++ '\n' :: rest).splitOn '\n' = l :: rest.splitOn '\n' :=
    List.splitOnP_append_cons_of_forall_mem hl '\n' rfl rest
  obtain ⟨piece, pieces, hpieces⟩ := List.exists_cons_of_ne_nil (List.splitOn_ne_nil '\n' rest)
  simp only [feedLines, hsplit, hpieces, List.dropLast_cons_cons, List.map_cons, List.cons_append,
    List.getLast?_cons_cons]

theorem feedLines_of_not_mem (h : '\n' ∉ l) : feedLines l = if l = [] then [] else [l] := by
  have hsplit : l.splitOn '\n' = [l] := List.splitOn_eq_singleton h
  by_cases hl : l = [] <;> simp [feedLines, hsplit, hl]

theorem dropReturn_of_not_mem (h : '\r' ∉ l) : dropReturn l = l :=
  if_neg fun hlast => h (List.mem_of_getLast? hlast)

theorem dropReturn_concat (l : Text) : dropReturn (l ++ ['\r']) = l := by
  simp [dropReturn]

theorem return_mem_dropReturn (hl : l ≠ []) : '\r' ∈ dropReturn (before ++ '\r' :: l) := by
  rw [dropReturn]
  split
  · rw [List.dropLast_append_of_ne_nil (List.cons_ne_nil _ l), List.dropLast_cons_of_ne_nil hl]
    simp
  · simp

/-- A carriage return that no line feed follows stays in a line. -/
theorem exists_return_mem_feedLines (before : Text) (h : after.head? ≠ some '\n') :
    ∃ line ∈ feedLines (before ++ '\r' :: after), '\r' ∈ line := by
  induction hn : before.length using Nat.strongRecOn generalizing before with
  | ind n ih =>
    -- The lines that end before the carriage return are dropped one by one.
    by_cases hbefore : '\n' ∈ before
    · obtain ⟨l, b, rfl, hl⟩ := List.eq_append_cons_of_mem hbefore
      have hlt : b.length < n := by
        rw [← hn, List.length_append, List.length_cons]
        omega
      obtain ⟨line, hline, hreturn⟩ := ih b.length hlt b rfl
      rw [List.append_assoc, List.cons_append, feedLines_append hl]
      exact ⟨line, List.mem_cons_of_mem _ hline, hreturn⟩
    · by_cases hafter : '\n' ∈ after
      · obtain ⟨l, b, rfl, hl⟩ := List.eq_append_cons_of_mem hafter
        have hne : l ≠ [] := by
          rintro rfl
          exact h rfl
        have hfirst : '\n' ∉ before ++ '\r' :: l := by simp [hbefore, hl]
        have hsplit : before ++ '\r' :: (l ++ '\n' :: b) = (before ++ '\r' :: l) ++ '\n' :: b := by
          rw [List.append_assoc, List.cons_append]
        rw [hsplit, feedLines_append hfirst]
        exact ⟨_, List.mem_cons_self, return_mem_dropReturn hne⟩
      · have hall : '\n' ∉ before ++ '\r' :: after := by simp [hbefore, hafter]
        rw [feedLines_of_not_mem hall, if_neg (by simp)]
        exact ⟨_, List.mem_cons_self, by simp⟩

/-- A line feed follows every carriage return. -/
def ReturnsBeforeFeeds (s : Text) : Prop :=
  ∀ before after, s = before ++ '\r' :: after → after.head? = some '\n'

theorem ReturnsBeforeFeeds.suffix (h : ReturnsBeforeFeeds s) (ht : t <:+ s) :
    ReturnsBeforeFeeds t := by
  rintro before after rfl
  obtain ⟨front, rfl⟩ := ht
  exact h (front ++ before) after (by rw [List.append_assoc])

theorem NoBreaks.not_mem (h : NoBreaks l) : '\r' ∉ l ∧ '\n' ∉ l :=
  ⟨fun hc => absurd (h '\r' hc) (by decide), fun hc => absurd (h '\n' hc) (by decide)⟩

/-- Where a line feed follows every carriage return, only line feeds end lines. -/
theorem Decomposes.feedLines_eq (h : Decomposes s parts) (hs : ReturnsBeforeFeeds s) :
    feedLines s = parts.map Prod.fst := by
  induction parts generalizing s with
  | nil =>
    rw [decomposes_nil_iff.mp h, feedLines_of_not_mem List.not_mem_nil]
    rfl
  | cons p parts ih =>
    obtain ⟨rest, rfl, hl, ht, hgreedy, hrest⟩ := decomposes_cons_iff.mp h
    obtain ⟨hreturn, hfeed⟩ := hl.not_mem
    have hsuffix : rest <:+ p.1 ++ (p.2 ++ rest) := ⟨p.1 ++ p.2, List.append_assoc _ _ _⟩
    rw [List.map_cons, ← ih hrest (hs.suffix hsuffix)]
    rw [isTerminator_iff] at ht
    -- Of the three terminators a lone carriage return is ruled out.
    obtain (hcrlf | hlf | hcr) | ⟨hnil, hne, rfl⟩ := ht
    · have hsplit : p.1 ++ (['\r', '\n'] ++ rest) = (p.1 ++ ['\r']) ++ '\n' :: rest := by simp
      have hfirst : '\n' ∉ p.1 ++ ['\r'] := by simp [hfeed]
      rw [hcrlf, hsplit, feedLines_append hfirst, dropReturn_concat]
    · rw [hlf, List.singleton_append, feedLines_append hfeed, dropReturn_of_not_mem hreturn]
    · rw [hcr] at hs hgreedy
      exact absurd (hs p.1 rest rfl) (hgreedy rfl)
    · rw [hnil, decomposes_nil_iff.mp hrest, List.nil_append, List.append_nil,
        feedLines_of_not_mem hfeed, if_neg hne]
      rfl

theorem lines_eq_feedLines_iff : lines s = feedLines s ↔ ReturnsBeforeFeeds s := by
  refine ⟨fun h before after hs => ?_, fun h => ?_⟩
  · by_contra hafter
    obtain ⟨line, hline, hreturn⟩ := exists_return_mem_feedLines before hafter
    rw [← hs, ← h] at hline
    exact absurd (not_isLineBreak_of_mem_lines hline '\r' hreturn) (by decide)
  · obtain ⟨parts, hparts⟩ := exists_decomposes s
    rw [hparts.lines_eq, hparts.feedLines_eq h]

/-- A text has one decomposition, and its lines are those of the decomposition. -/
theorem lines_decomposition (s : Text) :
    (∃ parts, (∀ parts', Decomposes s parts' ↔ parts' = parts) ∧ lines s = parts.map Prod.fst) ∧
      ((lines s).length = 0 ↔ s = []) ∧ (lines s = feedLines s ↔ ReturnsBeforeFeeds s) := by
  obtain ⟨parts, hparts⟩ := exists_decomposes s
  refine ⟨⟨parts, fun parts' => ⟨fun h => h.unique hparts, ?_⟩, hparts.lines_eq⟩, ?_,
    lines_eq_feedLines_iff⟩
  · rintro rfl
    exact hparts
  · rw [List.length_eq_zero_iff]
    refine ⟨fun h => ?_, fun h => by rw [h, lines_nil]⟩
    by_contra hs
    rw [lines, if_neg hs] at h
    cases h

example : lines "a\r\r\n\n\rb".toList = ["a".toList, [], [], [], "b".toList] := by decide +kernel

end MaterialText
