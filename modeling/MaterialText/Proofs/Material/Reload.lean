import MaterialText.Material
import MaterialText.Proofs.Document.RoundTrip

namespace MaterialText
open Text

variable {line s t : Text}

/-- A line is canonical as it stands, or its canonical line begins as a directive or as a
declaration. -/
theorem canonical_eq_or (line : Text) : canonical line = line ∨
    (canonical line).head? = some '#' ∨ (canonical line).head? = some 'c' := by
  cases h : Statement.parse line with
  | error e => exact .inl (canonical_of_error h)
  | ok st =>
    rw [canonical, Statement.ofLine_of_ok h]
    right
    cases st with
    | verbatim => exact absurd h Statement.parse_ne_verbatim
    | constant c =>
      rw [Statement.render_constant]
      exact .inr rfl
    | defineText name value =>
      rw [Statement.render_defineText]
      exact .inl rfl
    | defineInteger name value =>
      rw [Statement.render_defineInteger]
      exact .inl rfl
    | inclusion argument =>
      rw [Statement.render_inclusion]
      exact .inl rfl

/-- No canonical line begins with a mark, except of a line that is kept. -/
theorem canonical_eq_of_mark (h : (canonical line).head? = some byteOrderMark) :
    canonical line = line := by
  obtain heq | hhash | hc := canonical_eq_or line
  · exact heq
  · rw [hhash] at h
    cases h
  · rw [hc] at h
    cases h

/-- A mark is no blank, so a line that begins with one is neither a directive nor a declaration. -/
@[simp]
theorem canonical_mark_cons (line : Text) :
    canonical (byteOrderMark :: line) = byteOrderMark :: line := by
  have hblank : Stops isBlank (byteOrderMark :: line) := stops_cons.mpr (by decide)
  have heat : Text.eat '#' (skipBlanks (byteOrderMark :: line)) = none := by
    rw [skipBlanks_stops hblank]
    rfl
  have hword : (Word.scan (byteOrderMark :: line)).1 = [] := by
    rw [Word.scan, skipBlanks_stops hblank]
    rfl
  have hparse : ¬∃ st, Statement.parse (byteOrderMark :: line) = .ok st := by
    rintro ⟨st, hst⟩
    obtain ⟨rest, hstart, -⟩ := Statement.parse_eq_ok_iff.mp hst
    rw [Statement.readStart_of_not_eat heat, hword] at hstart
    cases hstart
  cases h : Statement.parse (byteOrderMark :: line) with
  | ok st => exact absurd ⟨st, h⟩ hparse
  | error e => exact canonical_of_error h

theorem dropMark_of_head?_ne (h : s.head? ≠ some byteOrderMark) : dropMark s = s := by
  cases s with
  | nil => rfl
  | cons c s =>
    have hc : (c == byteOrderMark) = false := by simpa using h
    simp [dropMark, dropOne, hc]

@[simp]
theorem dropMark_mark_cons (s : Text) : dropMark (byteOrderMark :: s) = s := by
  simp [dropMark, dropOne]

theorem head?_dropMark_eq_iff :
    (dropMark s).head? = some byteOrderMark ↔ [byteOrderMark, byteOrderMark] <+: s := by
  cases s with
  | nil => simp [dropMark, dropOne]
  | cons c s =>
    by_cases hc : c = byteOrderMark
    · rw [hc, dropMark_mark_cons, List.cons_prefix_cons]
      cases s with
      | nil => simp
      | cons d s => simp [eq_comm]
    · rw [dropMark_of_head?_ne (by simpa using hc), List.cons_prefix_cons]
      simp [hc, Ne.symm hc]

theorem head?_headD_lines {c : Char} (h : ((lines s).headD []).head? = some c) :
    s.head? = some c := by
  by_cases hs : s = []
  · rw [hs, lines_nil] at h
    cases h
  · rw [lines, if_neg hs, List.headD_cons] at h
    rw [← firstLine_append s, List.head?_append, h]
    rfl

theorem headD_map_canonical (ls : List Text) :
    (ls.map canonical).headD [] = canonical (ls.headD []) := by
  cases ls with
  | nil => decide
  | cons l ls => rfl

namespace Document

variable {e : LineEnding}

theorem head?_of_head?_render (h : ((parse s).render ⟨e, true⟩).head? = some byteOrderMark) :
    s.head? = some byteOrderMark := by
  obtain ⟨rest, hrest⟩ := List.head?_eq_some_iff.mp h
  have hlines := congrArg (·.headD []) (lines_render_final s e)
  rw [hrest, lines_cons (by decide), List.headD_cons, headD_map_canonical] at hlines
  have hkept : canonical ((lines s).headD []) = (lines s).headD [] := by
    apply canonical_eq_of_mark
    rw [← hlines]
    rfl
  apply head?_headD_lines
  rw [← hkept, ← hlines]
  rfl

/-- Behind a mark the first line is kept, so the mark comes first in the rendering. -/
theorem render_mark_cons (s : Text) (e : LineEnding) : ∃ rest,
    (parse (byteOrderMark :: s)).render ⟨e, true⟩ = byteOrderMark :: rest ∧
      lines rest = (lines s).headD [] :: (lines s).tail.map canonical := by
  have hlines : (lines (byteOrderMark :: s)).map canonical =
      (byteOrderMark :: (lines s).headD []) :: (lines s).tail.map canonical := by
    rw [lines_cons (by decide), List.map_cons, canonical_mark_cons]
  have hbreaks := noBreaks_of_mem_map_canonical (byteOrderMark :: s)
  rw [hlines, List.forall_mem_cons, noBreaks_cons] at hbreaks
  have hrest : ∀ l ∈ (lines s).headD [] :: (lines s).tail.map canonical, NoBreaks l :=
    List.forall_mem_cons.mpr ⟨hbreaks.1.2, hbreaks.2⟩
  have hne : lines (byteOrderMark :: s) ≠ [] := by
    rw [lines_cons (by decide)]
    exact List.cons_ne_nil _ _
  refine ⟨_, ?_, lines_intercalate_append_ending hrest (List.cons_ne_nil _ _) e⟩
  rw [render_parse, if_pos ⟨rfl, hne⟩, hlines, intercalate_cons_head]
  rfl

/-- A rendering that is read without its mark is rendered the same exactly if it has none. -/
theorem render_dropMark_eq_iff (s : Text) (e : LineEnding) :
    (parse (dropMark ((parse s).render ⟨e, true⟩))).render ⟨e, true⟩ = (parse s).render ⟨e, true⟩ ↔
      s.head? ≠ some byteOrderMark := by
  by_cases h : s.head? = some byteOrderMark
  · obtain ⟨s, rfl⟩ := List.head?_eq_some_iff.mp h
    obtain ⟨rest, hrender, hlines⟩ := render_mark_cons s e
    rw [hrender, dropMark_mark_cons]
    refine iff_of_false ?_ (not_not_intro h)
    intro heq
    -- The first line would have to be canonical with a mark that it does not have.
    have hfirst := congrArg lines heq
    rw [lines_render_final, lines_cons (by decide), hlines, List.map_cons] at hfirst
    have hmark := (List.cons.inj hfirst).1
    have hline := canonical_eq_of_mark (congrArg List.head? hmark)
    rw [hmark] at hline
    exact List.cons_ne_self _ _ hline
  · rw [dropMark_of_head?_ne fun hmark => h (head?_of_head?_render hmark)]
    exact iff_of_true (render_reread s e _) h

end Document

namespace Material

/-- A file is refused exactly if its bytes are no UTF-8. One whose rendering with a final ending is
loaded in its place is rendered the same, unless its text began with two marks. -/
theorem load_rendering {read : Reader} {name : Text} {bytes : ByteArray} (h : read name = .ok bytes) :
    (load read name = .error (.notUTF8 name) ↔ ¬bytes.IsValidUTF8) ∧
    ∀ t, bytes = encode t → ∃ file, load read name = .ok file ∧
      ∀ (e : LineEnding) (read' : Reader) (name' : Text),
        read' name' = .ok (encode (file.document.render ⟨e, true⟩)) →
          ∃ file', load read' name' = .ok file' ∧
            (file'.document.render ⟨e, true⟩ = file.document.render ⟨e, true⟩ ↔
              ¬[byteOrderMark, byteOrderMark] <+: t) := by
  refine ⟨load_eq_notUTF8_iff h, fun t ht => ⟨_, load_of_encode (ht ▸ h), ?_⟩⟩
  intro e read' name' h'
  refine ⟨_, load_of_encode h', ?_⟩
  rw [← head?_dropMark_eq_iff]
  exact Document.render_dropMark_eq_iff (dropMark t) e

theorem load_rendering_two_marks : ∃ file file',
    load (fun _ => .ok (encode "\uFEFF\uFEFF#define A 0x2".toList)) [] = .ok file ∧
    load (fun _ => .ok (encode (file.document.render ⟨.crlf, true⟩))) [] = .ok file' ∧
    file'.document.render ⟨.crlf, true⟩ ≠ file.document.render ⟨.crlf, true⟩ := by
  obtain ⟨file, hfile, hreload⟩ := (@load_rendering
    (fun _ => .ok (encode "\uFEFF\uFEFF#define A 0x2".toList)) [] _ rfl).2 _ rfl
  obtain ⟨file', hfile', heq⟩ := hreload .crlf (fun _ => .ok _) [] rfl
  refine ⟨file, file', hfile, hfile', fun h => heq.mp h ?_⟩
  decide

end Material
end MaterialText
