import MaterialText.Proofs.Single.FixedPoint
import MaterialText.Proofs.Statement.Constant
import MaterialText.Proofs.Statement.Directive
import MaterialText.Proofs.Text.LineBreaks
import MaterialText.Statement.Render

namespace MaterialText

namespace Statement
open FloatLiteral

variable {name argument w : Text} {texts : List Text} {values : List Single} {c : Constant}

theorem render_defineInteger (name : Text) (value : Int64) :
    render (.defineInteger name value) =
      '#' :: ("define".toList ++ ' ' :: (name ++ ' ' :: Integer.text value)) := by
  have h : render (.defineInteger name value) = "#define ".toList ++ name ++ ' ' ::
    Integer.text value := rfl
  have hdefine : "#define ".toList = '#' :: ("define".toList ++ [' ']) := rfl
  rw [h, hdefine]
  simp only [List.append_assoc, List.cons_append, List.nil_append]

theorem render_defineText (name value : Text) :
    render (.defineText name value) =
      '#' :: ("define".toList ++ ' ' :: (name ++ ' ' :: '"' :: (Quoted.escape value ++ ['"']))) := by
  have h : render (.defineText name value) =
    "#define ".toList ++ name ++ " \"".toList ++ Quoted.escape value ++ ['"'] := rfl
  have hdefine : "#define ".toList = '#' :: ("define".toList ++ [' ']) := rfl
  have hquote : " \"".toList = [' ', '"'] := rfl
  rw [h, hdefine, hquote]
  simp only [List.append_assoc, List.cons_append, List.nil_append]

theorem render_inclusion (argument : Text) :
    render (.inclusion argument) = '#' :: ("include".toList ++ ' ' :: argument) := by
  have h : render (.inclusion argument) = "#include ".toList ++ argument := rfl
  have hinclude : "#include ".toList = '#' :: ("include".toList ++ [' ']) := rfl
  rw [h, hinclude]
  simp only [List.append_assoc, List.cons_append, List.nil_append]

theorem render_constant (c : Constant) :
    render (.constant c) = "const".toList ++ ' ' :: (c.type.name ++ ' ' :: (c.name ++
      ' ' :: '=' :: ' ' :: (c.renderValue ++ [';']))) := by
  have h : render (.constant c) = "const ".toList ++ c.type.name ++ ' ' :: c.name ++ " = ".toList ++
    c.renderValue ++ [';'] := rfl
  have hconst : "const ".toList = "const".toList ++ [' '] := rfl
  have hequals : " = ".toList = [' ', '=', ' '] := rfl
  rw [h, hconst, hequals]
  simp only [List.append_assoc, List.cons_append, List.nil_append]

theorem definesInteger_render (hname : IsWord name) (value : Int64) :
    DefinesInteger (render (.defineInteger name value)) name value := by
  refine ⟨[], [], [' '], [' '], [], Integer.text value, value.toInt, ?_, ?_, by simp, hname,
    by simp, Integer.denotes_text value, Int.ModEq.refl _⟩
  · simp only [List.forall_mem_cons]
    exact ⟨blanks_nil, blanks_nil, blanks_space, blanks_space, blanks_nil, List.forall_mem_nil _⟩
  · rw [render_defineInteger]
    simp only [List.cons_append, List.nil_append, List.append_nil]

theorem definesText_render (hname : IsWord name) (value : Text) :
    DefinesText (render (.defineText name value)) name value := by
  refine ⟨[], [], [' '], [' '], [], Quoted.escape value, ?_, ?_, by simp, hname,
    Quoted.body_of_escape value⟩
  · simp only [List.forall_mem_cons]
    exact ⟨blanks_nil, blanks_nil, blanks_space, blanks_space, blanks_nil, List.forall_mem_nil _⟩
  · rw [render_defineText]
    simp only [List.cons_append, List.nil_append]

theorem includes_render (hargument : Stops isBlank argument) :
    Includes (render (.inclusion argument)) argument := by
  refine ⟨[], [], [' '], ?_, ?_, stops_cons.mpr rfl, hargument⟩
  · simp only [List.forall_mem_cons]
    exact ⟨blanks_nil, blanks_nil, blanks_space, List.forall_mem_nil _⟩
  · rw [render_inclusion]
    simp only [List.cons_append, List.nil_append]

theorem components_intercalate (h : List.Forall₂ Literal texts values) (hne : texts ≠ [])
    (hw : Blanks w) : Components (w ++ List.intercalate ", ".toList texts) values := by
  have hcomma : ", ".toList = [',', ' '] := rfl
  induction h generalizing w with
  | nil => exact absurd rfl hne
  | @cons t x texts values ht hrest ih =>
    cases hrest with
    | nil =>
      have h := Components.one hw ht blanks_nil
      rw [List.append_nil] at h
      rwa [List.intercalate_singleton]
    | @cons t' x' texts values ht' hrest =>
      have h := Components.more hw ht blanks_nil (ih (by simp) blanks_space)
      rw [List.intercalate_cons_cons, hcomma]
      simpa only [hcomma, List.cons_append, List.nil_append, List.append_assoc] using h

theorem forall_eq_of_literal {t : Text} {x : Single} (h : List.Forall₂ Literal texts values)
    (hall : ∀ t' ∈ texts, t' = t) (ht : Literal t x) : ∀ y ∈ values, y = x := by
  induction h with
  | nil =>
    intro y hy
    cases hy
  | cons hliteral _ ih =>
    rw [List.forall_mem_cons] at hall ⊢
    rw [hall.1] at hliteral
    exact ⟨hliteral.unique ht, ih hall.2⟩

theorem rightSide_renderValue (h : List.Forall₂ Literal (c.values.map Single.text) values)
    (hlen : values.length = c.type.dimension) :
    RightSide c.type.name c.type.dimension c.renderValue values := by
  unfold Constant.renderValue
  generalize c.values.map Single.text = texts at h
  cases h with
  | nil => cases hc : c.type <;> rw [hc] at hlen <;> cases hlen
  | @cons t x texts values ht hrest =>
    dsimp only
    split
    · rename_i hall
      have hvalues : x :: values = List.replicate c.type.dimension x := by
        rw [List.eq_replicate_iff, List.forall_mem_cons]
        refine ⟨hlen, rfl, forall_eq_of_literal hrest (fun t' ht' => ?_) ht⟩
        exact beq_iff_eq.mp (List.all_eq_true.mp hall t' ht')
      rw [hvalues]
      exact .scalar ht
    · have hcomponents := components_intercalate (.cons ht hrest) (by simp) blanks_nil
      have h : RightSide c.type.name c.type.dimension _ _ := .vector blanks_nil hcomponents hlen
      simpa only [List.cons_append, List.nil_append, List.append_assoc] using h

theorem exists_reread (hfinite : ∀ v ∈ values, v.isFinite = true) :
    ∃ values', List.Forall₂ Literal (values.map Single.text) values' ∧
      values'.map Single.text = values.map Single.text := by
  induction values with
  | nil => exact ⟨[], .nil, rfl⟩
  | cons v values ih =>
    rw [List.forall_mem_cons] at hfinite
    obtain ⟨v', hv', -, htext⟩ := Single.exists_literal_text hfinite.1
    obtain ⟨values', hvalues', htexts⟩ := ih hfinite.2
    exact ⟨v' :: values', .cons hv' hvalues', by rw [List.map_cons, List.map_cons, htext, htexts]⟩

/-- The canonical line of a constant declares the constant with its values read back. -/
theorem exists_declares_render (hname : IsWord c.name) (hfinite : ∀ v ∈ c.values, v.isFinite = true) :
    ∃ c', Declares (render (.constant c)) c' ∧ c'.name = c.name ∧ c'.type = c.type ∧
      List.Forall₂ Literal (c.values.map Single.text) c'.values ∧
        c'.values.map Single.text = c.values.map Single.text := by
  obtain ⟨values, hvalues, htexts⟩ := exists_reread hfinite
  have hlen : values.length = c.type.dimension := by
    rw [← hvalues.length_eq, List.length_map, c.length_values]
  refine ⟨⟨c.name, c.type, values, hlen⟩, ?_, rfl, rfl, hvalues, htexts⟩
  refine ⟨[], [' '], [' '], [' '], [' '], [], [], c.type.name, c.renderValue, ?_, ?_, by simp,
    by simp, ?_, hname, ?_⟩
  · simp only [List.forall_mem_cons]
    exact ⟨blanks_nil, blanks_space, blanks_space, blanks_space, blanks_space, blanks_nil,
      blanks_nil, List.forall_mem_nil _⟩
  · rw [render_constant]
    simp only [List.cons_append, List.nil_append]
  · rw [hlen]
    exact mem_typeNames_iff.mpr rfl
  · rw [hlen]
    exact rightSide_renderValue hvalues hlen

theorem noBreaks_escape (s : Text) : NoBreaks (Quoted.escape s) := by
  intro d hd
  apply Bool.eq_false_iff.mpr
  intro hbreak
  have hcontrol := Quoted.control_not_mem_escape hd
  simp only [isLineBreak, Bool.or_eq_true, beq_iff_eq] at hbreak
  rcases hbreak with rfl | rfl
  · exact absurd hcontrol (by decide)
  · exact absurd hcontrol (by decide)

theorem visible_integerText (i : Int64) : Visible (Integer.text i) := by
  have hdigits : Visible (Numeral.decimal i.toInt.natAbs) :=
    visible_of_forall_isDigit fun _ => Numeral.isDigit_of_mem_decimal
  rw [Integer.text]
  split
  · exact visible_cons.mpr ⟨by decide, hdigits⟩
  · exact hdigits

theorem noBreaks_intercalate {separator : Text} (hseparator : NoBreaks separator)
    (h : ∀ t ∈ texts, NoBreaks t) : NoBreaks (List.intercalate separator texts) := by
  induction texts with
  | nil => simp
  | cons t texts ih =>
    rw [List.forall_mem_cons] at h
    by_cases hne : texts = []
    · simp [hne, h.1]
    · simp [List.intercalate_cons_of_ne_nil hne, h.1, hseparator, ih h.2]

theorem noBreaks_renderValue (hfinite : ∀ v ∈ c.values, v.isFinite = true) :
    NoBreaks c.renderValue := by
  have htexts : ∀ t ∈ c.values.map Single.text, NoBreaks t := by
    intro t ht
    obtain ⟨v, hv, rfl⟩ := List.mem_map.mp ht
    obtain ⟨_, hliteral, -, -⟩ := Single.exists_literal_text (hfinite v hv)
    exact hliteral.visible.noBreaks
  unfold Constant.renderValue
  generalize c.values.map Single.text = texts at htexts
  cases texts with
  | nil => simp
  | cons t texts =>
    dsimp only
    split
    · exact htexts t (by simp)
    · have hcomma : NoBreaks ", ".toList := by decide
      have hlist := noBreaks_intercalate hcomma htexts
      simp only [noBreaks_append, noBreaks_cons, noBreaks_nil, and_true]
      exact ⟨⟨(isWord_typeName c.type).noBreaks, rfl, hlist⟩, rfl⟩

end Statement
end MaterialText
