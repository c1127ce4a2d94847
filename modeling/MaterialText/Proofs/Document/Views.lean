import MaterialText.Proofs.Document.RoundTrip
import MaterialText.Proofs.Json.View

namespace MaterialText

namespace Json

variable {style : Style} {records records' : List Record} {objects objects' : List (List (Text × Value))}

/-- A value is that of one field only, since numbers keep their numerals. -/
theorem leftUnique_fieldMeans : Relator.LeftUnique Field.Means := by
  intro f f' v h h'
  cases h with
  | number _ =>
    cases h'
    rfl
  | string s =>
    cases h'
    rfl
  | numbers h =>
    cases h' with
    | numbers h' =>
      congr 1
      refine List.left_unique_forall₂' ?_ h h'
      rintro t t' v ⟨q, -, rfl⟩ ⟨q', -, hv⟩
      exact (Value.number.inj hv).1

theorem leftUnique_recordMeans : Relator.LeftUnique Record.Means := by
  intro r r' ms h h'
  apply List.left_unique_forall₂' _ h h'
  rintro field field' m ⟨hname, hf⟩ ⟨hname', hf'⟩
  exact Prod.ext (hname.trans hname'.symm) (leftUnique_fieldMeans hf hf')

theorem eq_of_write_eq (h : List.Forall₂ Record.Means records objects)
    (h' : List.Forall₂ Record.Means records' objects')
    (hwrite : write style records = write style records') : records = records' := by
  have hdecode := decode?_of_denotes (denotes_write style h)
  rw [hwrite, decode?_of_denotes (denotes_write style h')] at hdecode
  have hobjects : objects'.map Value.object = objects.map Value.object :=
    Value.array.inj (Option.some.inj hdecode)
  obtain rfl : objects' = objects :=
    List.map_injective_iff.mpr (fun _ _ => Value.object.inj) hobjects
  exact List.left_unique_forall₂' leftUnique_recordMeans h h'

end Json

namespace Statement

variable {st st' : Statement}

theorem render_eq_of_fields_eq (h : st.fields = st'.fields) : st.render = st'.render := by
  cases st <;> cases st' <;> simp [fields] at h
  case verbatim.verbatim => exact h
  case defineText.defineText =>
    obtain ⟨rfl, rfl⟩ := h
    rfl
  case defineInteger.defineInteger =>
    obtain ⟨rfl, hvalue⟩ := h
    rw [render_defineInteger, render_defineInteger, hvalue]
  case constant.constant c c' =>
    obtain ⟨hname, htypeName, htexts⟩ := h
    have htype : c.type = c'.type := by
      have hc := FloatType.ofName?_eq_some_iff.mpr htypeName
      rw [FloatType.ofName?_eq_some_iff.mpr rfl] at hc
      exact Option.some.inj hc
    exact (views_eq hname htype htexts).1
  case inclusion.inclusion => rw [h]

/-- What two lines say has equal canonical lines exactly if it has equal fields. -/
theorem render_ofLine_eq_iff {line line' : Text} :
    (ofLine line).render = (ofLine line').render ↔ (ofLine line).fields = (ofLine line').fields := by
  constructor
  · intro h
    rw [← (ofLine_render line).2.2, h, (ofLine_render line').2.2]
  · exact render_eq_of_fields_eq

end Statement

namespace Document
open Json

variable {d d' : Document} {s t : Text}

theorem map_parse_eq_iff {α : Type} {f : Statement → α} :
    (parse s).statements.map f = (parse t).statements.map f ↔
      List.Forall₂ (fun l l' => f (Statement.ofLine l) = f (Statement.ofLine l')) (lines s) (lines t) := by
  rw [parse, parse, List.map_map, List.map_map, ← List.forall₂_eq_eq_eq,
    List.forall₂_map_left_iff, List.forall₂_map_right_iff]
  rfl

theorem render_parse_eq_iff (e : LineEnding) :
    (parse s).render ⟨e, true⟩ = (parse t).render ⟨e, true⟩ ↔
      (parse s).statements.map Statement.render = (parse t).statements.map Statement.render := by
  constructor
  · intro h
    rw [map_render_parse, map_render_parse, ← lines_render_final s e, h, lines_render_final]
  · intro h
    exact render_congr h _

theorem map_tail_records (d : Document) :
    (d.statements.zipIdx.map fun p => p.1.record p.2).map List.tail =
      d.statements.map Statement.fields := by
  have hfields : (List.tail ∘ fun p : Statement × Nat => p.1.record p.2) =
      Statement.fields ∘ Prod.fst := by
    funext p
    rfl
  rw [List.map_map, hfields, ← List.map_map, List.zipIdx_map_fst]

theorem json_eq_iff (hd : ∀ st ∈ d.statements, st.HasFiniteValues)
    (hd' : ∀ st ∈ d'.statements, st.HasFiniteValues) (style : Style) :
    d.json style = d'.json style ↔
      d.statements.map Statement.fields = d'.statements.map Statement.fields := by
  constructor
  · intro h
    have hrecords := eq_of_write_eq (means_records hd) (means_records hd') h
    rw [← map_tail_records, hrecords, map_tail_records]
  · intro h
    exact json_congr h style

/-- Texts that are rendered alike are alike as JSON, and texts that are alike as JSON are rendered
alike. -/
theorem render_eq_iff_json_eq (s t : Text) (e : LineEnding) (style : Style) :
    (parse s).render ⟨e, true⟩ = (parse t).render ⟨e, true⟩ ↔
      (parse s).json style = (parse t).json style := by
  rw [render_parse_eq_iff, json_eq_iff hasFiniteValues_of_mem_parse hasFiniteValues_of_mem_parse,
    map_parse_eq_iff, map_parse_eq_iff]
  simp only [Statement.render_ofLine_eq_iff]

end Document
end MaterialText
