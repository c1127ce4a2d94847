import MaterialText.Proofs.Document.RoundTrip

namespace MaterialText

namespace Single

variable {x y : Single}

theorem equal_iff : x.equal y = true ↔
    (x.isNaN = false ∧ y.isNaN = false) ∧ (x = y ∨ x.code = 0 ∧ y.code = 0) := by
  simp only [equal, Bool.and_eq_true, Bool.not_eq_true', Bool.or_eq_true, beq_iff_eq]

@[simp]
theorem text_zero (negative : Bool) : text ⟨negative, 0⟩ = "0.0".toList := by
  cases negative <;> decide

theorem text_eq_of_equal (h : x.equal y = true) : x.text = y.text := by
  obtain ⟨-, rfl | ⟨hx, hy⟩⟩ := equal_iff.mp h
  · rfl
  · obtain ⟨negative, code⟩ := x
    obtain ⟨negative', code'⟩ := y
    obtain rfl : code = 0 := hx
    obtain rfl : code' = 0 := hy
    rw [text_zero, text_zero]

theorem isFinite_eq_of_equal (h : x.equal y = true) : x.isFinite = y.isFinite := by
  obtain ⟨-, rfl | ⟨hx, hy⟩⟩ := equal_iff.mp h
  · rfl
  · rw [isFinite, isFinite, hx, hy]

end Single

namespace Constant

variable {a b : Constant}

theorem equal_iff : a.equal b = true ↔ a.name = b.name ∧ a.type = b.type ∧
    List.Forall₂ (fun x y => x.equal y = true) a.values b.values := by
  have hlen : a.type = b.type → a.values.length = b.values.length := by
    intro h
    rw [a.length_values, b.length_values, h]
  simp only [equal, Bool.and_eq_true, beq_iff_eq, List.all_eq_true, and_assoc]
  refine and_congr_right fun _ => and_congr_right fun htype => ?_
  rw [List.forall₂_iff_zip]
  exact ⟨fun h => ⟨hlen htype, fun hp => h _ hp⟩, fun h p hp => h.2 hp⟩

end Constant

namespace Statement
open FloatLiteral

variable {a b st : Statement} {c : Constant} {line : Text} {values values' : List Single}

/-- The statements whose parts could have been read from a line. -/
def Readable : Statement → Prop
  | .verbatim line => ∃ e, parse line = .error e
  | .defineText name _ => IsWord name
  | .defineInteger name _ => IsWord name
  | .constant c => IsWord c.name ∧ ∀ v ∈ c.values, v.isFinite = true ∧
      ∃ y rest, FloatLiteral.read v.text = some (y, rest) ∧ v.equal y = true
  | .inclusion argument => Stops isBlank argument

theorem equal_iff_eq (hb : ∀ c, b ≠ .constant c) : a.equal b = true ↔ a = b := by
  unfold equal
  split
  · exact absurd rfl (hb _)
  · exact beq_iff_eq

theorem exists_of_equal_constant (h : a.equal (.constant c) = true) :
    ∃ c', a = .constant c' ∧ c'.equal c = true := by
  unfold equal at h
  split at h
  · rename_i heq
    cases heq
    exact ⟨_, rfl, h⟩
  · rename_i hne
    obtain rfl := beq_iff_eq.mp h
    exact absurd rfl (hne c c rfl)

theorem views_eq_of_equal (h : a.equal b = true) : a.render = b.render ∧ a.fields = b.fields := by
  cases b with
  | constant c =>
    obtain ⟨c', rfl, hc⟩ := exists_of_equal_constant h
    obtain ⟨hname, htype, hvalues⟩ := Constant.equal_iff.mp hc
    have htexts : c'.values.map Single.text = c.values.map Single.text := by
      rw [← List.forall₂_eq_eq_eq, List.forall₂_map_left_iff, List.forall₂_map_right_iff]
      exact hvalues.imp fun _ _ => Single.text_eq_of_equal
    exact views_eq hname htype htexts
  | _ =>
    rw [(equal_iff_eq (by simp)).mp h]
    exact ⟨rfl, rfl⟩

theorem ofLine_eq_iff (hst : ∀ t, st ≠ .verbatim t) : ofLine line = st ↔ parse line = .ok st := by
  cases h : parse line with
  | ok st' => rw [ofLine_of_ok h, Except.ok.injEq]
  | error e =>
    rw [ofLine_of_error h]
    exact iff_of_false (fun heq => hst line heq.symm) (by simp)

theorem ofLine_eq_verbatim_iff : ofLine line = .verbatim line ↔ ∃ e, parse line = .error e := by
  cases h : parse line with
  | ok st =>
    rw [ofLine_of_ok h]
    refine iff_of_false ?_ (by simp)
    rintro rfl
    exact parse_ne_verbatim h
  | error e => simp [ofLine_of_error h]

theorem forall₂_equal_iff (h : List.Forall₂ Literal (values.map Single.text) values') :
    List.Forall₂ (fun x y => x.equal y = true) values' values ↔
      ∀ v ∈ values, ∃ y rest, FloatLiteral.read v.text = some (y, rest) ∧ v.equal y = true := by
  rw [List.forall₂_map_left_iff] at h
  induction h with
  | nil => simp
  | @cons v y values values' hliteral _ ih =>
    rw [List.forall₂_cons, List.forall_mem_cons, ih]
    refine and_congr_left fun _ => ⟨fun hy => ?_, fun hy => ?_⟩
    · exact ⟨y, [], hliteral.read, by rwa [Single.equal_comm]⟩
    · obtain ⟨y', rest, hread, hequal⟩ := hy
      rw [hliteral.read] at hread
      cases hread
      rwa [Single.equal_comm]

theorem isFinite_of_equal (h : List.Forall₂ (fun x y => x.equal y = true) values' values)
    (hfinite : ∀ v ∈ values', v.isFinite = true) : ∀ v ∈ values, v.isFinite = true := by
  induction h with
  | nil => simp
  | cons hxy _ ih =>
    rw [List.forall_mem_cons] at hfinite ⊢
    exact ⟨by rw [← Single.isFinite_eq_of_equal hxy, hfinite.1], ih hfinite.2⟩

/-- A constant is read back if its name is a word and its values are those of their texts. -/
theorem ofLine_render_constant_iff : (ofLine (render (.constant c))).equal (.constant c) = true ↔
    Readable (.constant c) := by
  -- What is read back was declared by the canonical line, and no line declares two constants.
  have key (hname : IsWord c.name) (hfinite : ∀ v ∈ c.values, v.isFinite = true) :
      (ofLine (render (.constant c))).equal (.constant c) = true ↔
        ∀ v ∈ c.values, ∃ y rest, FloatLiteral.read v.text = some (y, rest) ∧ v.equal y = true := by
    obtain ⟨c', hline, hname', htype, hvalues, -⟩ := exists_declares_render hname hfinite
    rw [ofLine_of_ok (parse_constant_iff_declares.mpr hline), ← forall₂_equal_iff hvalues]
    change c'.equal c = true ↔ _
    simp only [Constant.equal_iff, hname', htype, true_and]
  refine ⟨fun h => ?_, fun h => ?_⟩
  · obtain ⟨c', hc', hequal⟩ := exists_of_equal_constant h
    obtain ⟨hname', hfinite'⟩ :=
      (parse_constant_iff_declares.mp ((ofLine_eq_iff (by simp)).mp hc')).spec
    obtain ⟨hname, -, hvalues⟩ := Constant.equal_iff.mp hequal
    rw [hname] at hname'
    have hfinite := isFinite_of_equal hvalues hfinite'
    exact ⟨hname', fun v hv => ⟨hfinite v hv, (key hname' hfinite).mp h v hv⟩⟩
  · obtain ⟨hname, hvalues⟩ := h
    exact (key hname fun v hv => (hvalues v hv).1).mpr fun v hv => (hvalues v hv).2

theorem ofLine_render_equal_iff (st : Statement) :
    (ofLine st.render).equal st = true ↔ Readable st := by
  cases st with
  | constant c => exact ofLine_render_constant_iff
  | verbatim line =>
    rw [equal_iff_eq (by simp)]
    exact ofLine_eq_verbatim_iff
  | defineText name value =>
    rw [equal_iff_eq (by simp), ofLine_eq_iff (by simp), parse_defineText_iff]
    exact ⟨DefinesText.isWord, fun hname => definesText_render hname value⟩
  | defineInteger name value =>
    rw [equal_iff_eq (by simp), ofLine_eq_iff (by simp), parse_defineInteger_iff]
    exact ⟨DefinesInteger.isWord, fun hname => definesInteger_render hname value⟩
  | inclusion argument =>
    rw [equal_iff_eq (by simp), ofLine_eq_iff (by simp), parse_inclusion_iff]
    exact ⟨fun h => h.spec.1, includes_render⟩

end Statement

namespace Document
open Statement

variable {a b d : Document}

theorem equal_iff : a.equal b = true ↔
    List.Forall₂ (fun s t => s.equal t = true) a.statements b.statements := by
  simp only [equal, length, Bool.and_eq_true, beq_iff_eq, List.all_eq_true, List.forall₂_iff_zip]
  exact ⟨fun h => ⟨h.1, fun hp => h.2 _ hp⟩, fun h => ⟨h.1, fun p hp => h.2 hp⟩⟩

theorem map_views_eq_of_equal (h : a.equal b = true) :
    a.statements.map Statement.render = b.statements.map Statement.render ∧
      a.statements.map Statement.fields = b.statements.map Statement.fields := by
  have hviews := (equal_iff.mp h).imp fun _ _ => views_eq_of_equal
  constructor
  · rw [← List.forall₂_eq_eq_eq, List.forall₂_map_left_iff, List.forall₂_map_right_iff]
    exact hviews.imp fun _ _ hv => hv.1
  · rw [← List.forall₂_eq_eq_eq, List.forall₂_map_left_iff, List.forall₂_map_right_iff]
    exact hviews.imp fun _ _ hv => hv.2

theorem reread_equal_iff (d : Document) (e : LineEnding) : (d.reread e).equal d = true ↔
    ∀ st ∈ d.statements, Readable st ∧ NoBreaks st.render := by
  -- Lines have no breaks, so neither do the canonical lines of what was read from them.
  have hbreaks (h : (d.reread e).equal d = true) : ∀ st ∈ d.statements, NoBreaks st.render := by
    intro st hst
    have hmem : st.render ∈ (d.reread e).statements.map Statement.render := by
      rw [(map_views_eq_of_equal h).1]
      exact List.mem_map_of_mem hst
    rw [reread, map_render_parse] at hmem
    exact noBreaks_of_mem_map_canonical _ _ hmem
  have hequal (h : ∀ st ∈ d.statements, NoBreaks st.render) : (d.reread e).equal d = true ↔
      ∀ st ∈ d.statements, Readable st := by
    rw [equal_iff, reread, parse, lines_render_of_noBreaks h, List.map_map,
      List.forall₂_map_left_iff, List.forall₂_same]
    simp only [Function.comp_apply, ofLine_render_equal_iff]
  refine ⟨fun h st hst => ?_, fun h => ?_⟩
  · exact ⟨(hequal (hbreaks h)).mp h st hst, hbreaks h st hst⟩
  · exact (hequal fun st hst => (h st hst).2).mpr fun st hst => (h st hst).1

end Document

/-- Exactly the statements with readable parts survive a round trip, and exactly the documents of
such statements whose canonical lines are single lines. -/
theorem survives_iff :
    (∀ st : Statement, (Statement.ofLine st.render).equal st = true ↔ st.Readable) ∧
    ∀ (d : Document) (e : LineEnding), (Document.parse (d.render ⟨e, true⟩)).equal d = true ↔
      ∀ st ∈ d.statements, st.Readable ∧ NoBreaks st.render :=
  ⟨Statement.ofLine_render_equal_iff, Document.reread_equal_iff⟩

end MaterialText
