import MaterialText.Proofs.Document.RoundTrip

namespace MaterialText

namespace Statement

variable {st : Statement}

theorem render_eq_nil_iff : st.render = [] ↔ st = .verbatim [] := by
  cases st with
  | verbatim line => rw [verbatim.injEq]; rfl
  | defineText name value => rw [render_defineText]; simp
  | defineInteger name value => rw [render_defineInteger]; simp
  | constant c => rw [render_constant]; simp
  | inclusion argument => rw [render_inclusion]; simp

end Statement

namespace Document

variable {d : Document} {s : Text}

/-- The document read from the lines of a document, the last of them without an ending. -/
def rereadPlain (d : Document) (e : LineEnding) : Document := parse (d.render ⟨e, false⟩)

def EndsBlank (d : Document) : Prop := d.statements.getLast? = some (.verbatim [])

instance (d : Document) : Decidable d.EndsBlank := inferInstanceAs (Decidable (_ = _))

/-- The document without a last statement that is an empty line. -/
def trimmed (d : Document) : Document := if d.EndsBlank then ⟨d.statements.dropLast⟩ else d

theorem length_trimmed (d : Document) :
    d.trimmed.length + (if d.EndsBlank then 1 else 0) = d.length := by
  unfold trimmed
  split
  · rename_i h
    have hne : d.statements ≠ [] := by
      intro hnil
      rw [EndsBlank, hnil] at h
      cases h
    have hpos := List.length_pos_iff.mpr hne
    simp only [length, List.length_dropLast]
    omega
  · rfl

theorem getElem?_trimmed {i : Nat} {st : Statement} (h : d.trimmed.statements[i]? = some st) :
    d.statements[i]? = some st := by
  unfold trimmed at h
  split at h
  · rw [List.getElem?_dropLast] at h
    exact (Option.ite_none_right_eq_some.mp h).2
  · exact h

theorem render_plain (d : Document) (e : LineEnding) :
    d.render ⟨e, false⟩ = List.intercalate e.text (d.statements.map Statement.render) := by
  rw [render, if_neg (by simp), List.append_nil]

theorem lines_render_trimmed (h : ∀ st ∈ d.statements, NoBreaks st.render) (e : LineEnding) :
    lines (d.render ⟨e, false⟩) = d.trimmed.statements.map Statement.render := by
  have hblank : (d.statements.map Statement.render).getLast? = some [] ↔ d.EndsBlank := by
    rw [List.getLast?_map, Option.map_eq_some_iff, EndsBlank]
    simp only [Statement.render_eq_nil_iff, exists_eq_right]
  rw [render_plain, lines_joined (List.forall_mem_map.mpr h), trimmed]
  simp only [hblank]
  split
  · exact List.map_dropLast.symm
  · rfl

/-- The separator before a last empty line shows, unless that line is the only one. -/
theorem render_trimmed_eq_iff (d : Document) (e : LineEnding) :
    d.trimmed.render ⟨e, false⟩ = d.render ⟨e, false⟩ ↔ d.length ≤ 1 ∨ ¬d.EndsBlank := by
  by_cases hblank : d.EndsBlank
  · obtain ⟨init, hd⟩ := List.getLast?_eq_some_iff.mp hblank
    have htrimmed : d.trimmed = ⟨init⟩ := by rw [trimmed, if_pos hblank, hd, List.dropLast_concat]
    have hlen : d.length = init.length + 1 := by rw [length, hd, List.length_append]; rfl
    have hlast : Statement.render (.verbatim []) = [] := rfl
    rw [htrimmed, render_plain, render_plain, hd, List.map_append, List.map_singleton, hlast, hlen]
    by_cases hinit : init = []
    · subst hinit
      exact iff_of_true rfl (.inl le_rfl)
    · have hpos := List.length_pos_iff.mpr hinit
      have hending : e.text ≠ [] := by cases e <;> simp [LineEnding.text]
      rw [← intercalate_append_ending (by simpa using hinit), List.self_eq_append_right]
      refine iff_of_false hending ?_
      rintro (hle | hnot)
      · omega
      · exact hnot hblank
  · rw [trimmed, if_neg hblank]
    exact iff_of_true rfl (.inr hblank)

theorem statements_rereadPlain (s : Text) (e : LineEnding) :
    ((parse s).rereadPlain e).statements =
      (parse s).trimmed.statements.map fun st => Statement.ofLine st.render := by
  have hbreaks := noBreaks_of_mem_map_canonical s
  rw [← map_render_parse, List.forall_mem_map] at hbreaks
  rw [rereadPlain, parse, lines_render_trimmed hbreaks, List.map_map]
  rfl

theorem map_render_rereadPlain (s : Text) (e : LineEnding) :
    ((parse s).rereadPlain e).statements.map Statement.render =
      (parse s).trimmed.statements.map Statement.render := by
  rw [statements_rereadPlain, List.map_map]
  apply List.map_congr_left
  intro st hst
  obtain ⟨i, hi⟩ := List.mem_iff_getElem?.mp hst
  obtain ⟨line, -, rfl⟩ := List.mem_map.mp (List.mem_of_getElem? (getElem?_trimmed hi))
  exact (Statement.ofLine_render line).2.1

/-- Reading a rendering without a final ending loses exactly a last empty line. All other statements
are rendered as before, and the rendering is the same again unless the lost line had another before
it. -/
theorem rereadPlain_views (s : Text) (e : LineEnding) :
    ((parse s).rereadPlain e).length + (if (parse s).EndsBlank then 1 else 0) = (parse s).length ∧
    (∀ (i : Nat) (st : Statement), ((parse s).rereadPlain e).statements[i]? = some st →
      ∃ st', (parse s).statements[i]? = some st' ∧ st.render = st'.render) ∧
    (((parse s).rereadPlain e).render ⟨e, false⟩ = (parse s).render ⟨e, false⟩ ↔
      (parse s).length ≤ 1 ∨ ¬(parse s).EndsBlank) := by
  have hrender := map_render_rereadPlain s e
  refine ⟨?_, ?_, ?_⟩
  · have hlen : ((parse s).rereadPlain e).length = (parse s).trimmed.length := by
      rw [length, length, statements_rereadPlain, List.length_map]
    rw [hlen, length_trimmed]
  · intro i st hi
    have hmap := congrArg (·[i]?) hrender
    simp only [List.getElem?_map, hi, Option.map_some] at hmap
    obtain ⟨st', hst', heq⟩ := Option.map_eq_some_iff.mp hmap.symm
    exact ⟨st', getElem?_trimmed hst', heq.symm⟩
  · rw [render_congr hrender, render_trimmed_eq_iff]

end Document
end MaterialText
