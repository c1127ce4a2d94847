import MaterialText.Proofs.Document.Survival

namespace MaterialText

theorem forall₂_of_common {α : Type} {R : α → α → Prop}
    (hR : ∀ x a b, R x a → R x b → R a b) {l l' l'' : List α}
    (h : List.Forall₂ R l l') (h' : List.Forall₂ R l l'') : List.Forall₂ R l' l'' := by
  induction h generalizing l'' with
  | nil =>
    cases h'
    exact .nil
  | cons ha _ ih =>
    cases h' with
    | cons hb hrest => exact .cons (hR _ _ _ ha hb) (ih hrest)

theorem Single.equal_of_common {x y z : Single} (hy : x.equal y = true) (hz : x.equal z = true) :
    y.equal z = true := by
  rw [equal_iff] at hy hz ⊢
  obtain ⟨⟨-, hyNaN⟩, rfl | ⟨hx, hyZero⟩⟩ := hy
  · exact hz
  · obtain ⟨⟨-, hzNaN⟩, rfl | ⟨-, hzZero⟩⟩ := hz
    · exact ⟨⟨hyNaN, hzNaN⟩, .inr ⟨hyZero, hx⟩⟩
    · exact ⟨⟨hyNaN, hzNaN⟩, .inr ⟨hyZero, hzZero⟩⟩

namespace Constant

variable {a b c : Constant}

theorem equal_of_common (ha : c.equal a = true) (hb : c.equal b = true) : a.equal b = true := by
  obtain ⟨hname, htype, hvalues⟩ := equal_iff.mp ha
  obtain ⟨hname', htype', hvalues'⟩ := equal_iff.mp hb
  exact equal_iff.mpr ⟨hname.symm.trans hname', htype.symm.trans htype',
    forall₂_of_common (R := fun x y => Single.equal x y = true)
      (fun _ _ _ => Single.equal_of_common) hvalues hvalues'⟩

theorem isUniform_iff : c.isUniform = true ↔
    ∃ x xs, c.values = x :: xs ∧ ∀ v ∈ c.values, v.equal x = true := by
  have hne : c.values ≠ [] := by
    intro h
    have hlen := c.length_values
    rw [h] at hlen
    cases ht : c.type <;> rw [ht] at hlen <;> cases hlen
  obtain ⟨x, xs, hvalues⟩ := List.exists_cons_of_ne_nil hne
  simp only [isUniform, hvalues, List.head?_cons, Option.any_some, List.all_eq_true]
  exact ⟨fun h => ⟨x, xs, rfl, h⟩, fun ⟨_, _, heq, h⟩ => by cases heq; exact h⟩

theorem renderValue_of_isUniform (h : c.isUniform = true) :
    ∃ x, c.values.head? = some x ∧ c.renderValue = x.text := by
  obtain ⟨x, xs, hvalues, hequal⟩ := isUniform_iff.mp h
  have htexts : (xs.map Single.text).all (· == x.text) = true := by
    rw [List.all_map, List.all_eq_true]
    intro v hv
    exact beq_iff_eq.mpr (Single.text_eq_of_equal (hequal v (by simp [hvalues, hv])))
  refine ⟨x, by rw [hvalues, List.head?_cons], ?_⟩
  rw [renderValue, hvalues, List.map_cons]
  exact if_pos htexts

end Constant

namespace Statement

variable {a b st : Statement}

theorem equal_of_common (ha : st.equal a = true) (hb : st.equal b = true) : a.equal b = true := by
  cases a with
  | constant c =>
    obtain ⟨c₀, rfl, hc⟩ := exists_of_equal_constant ha
    cases b with
    | constant c' => exact Constant.equal_of_common hc hb
    | _ => cases (equal_iff_eq (by simp)).mp hb
  | _ =>
    obtain rfl := (equal_iff_eq (by simp)).mp ha
    exact hb

end Statement

namespace Document

variable {d d' : Document}

/-- Equal documents look the same in every view, a constant of equal values is written with one
value, and statements that are read back from one canonical line are equal. -/
theorem views_of_equal :
    (∀ d d' : Document, d.equal d' = true →
      (∀ joining, d.render joining = d'.render joining) ∧ ∀ style, d.json style = d'.json style) ∧
    (∀ c : Constant, c.isUniform = true → ∃ x, c.values.head? = some x ∧
      (Statement.constant c).render = "const".toList ++ ' ' :: (c.type.name ++ ' ' :: (c.name ++
        ' ' :: '=' :: ' ' :: (x.text ++ [';'])))) ∧
    ∀ a b : Statement, (Statement.ofLine a.render).equal a = true →
      (Statement.ofLine b.render).equal b = true → a.render = b.render → a.equal b = true := by
  refine ⟨fun d d' h => ?_, fun c h => ?_, fun a b ha hb hrender => ?_⟩
  · obtain ⟨hrender, hfields⟩ := map_views_eq_of_equal h
    exact ⟨render_congr hrender, json_congr hfields⟩
  · obtain ⟨x, hx, hvalue⟩ := Constant.renderValue_of_isUniform h
    exact ⟨x, hx, by rw [Statement.render_constant, hvalue]⟩
  · rw [← hrender] at hb
    exact Statement.equal_of_common ha hb

def zeros (s t : Bool) : Constant := ⟨"v".toList, .float2, [⟨s, 0⟩, ⟨t, 0⟩], rfl⟩

theorem views_of_equal_zeros :
    (Document.equal ⟨[.constant (zeros false true)]⟩ ⟨[.constant (zeros true true)]⟩ = true ∧
      (∀ joining, render ⟨[.constant (zeros false true)]⟩ joining =
        render ⟨[.constant (zeros true true)]⟩ joining) ∧
      ∀ style, json ⟨[.constant (zeros false true)]⟩ style =
        json ⟨[.constant (zeros true true)]⟩ style) ∧
    ((zeros false true).isUniform = true ∧ ∃ x, (zeros false true).values.head? = some x ∧
      (Statement.constant (zeros false true)).render = "const".toList ++
        ' ' :: ((zeros false true).type.name ++ ' ' :: ((zeros false true).name ++
          ' ' :: '=' :: ' ' :: (x.text ++ [';'])))) ∧
    ((Statement.ofLine (zeros false true).render).equal (.constant (zeros false true)) = true ∧
      (Statement.ofLine (zeros true true).render).equal (.constant (zeros true true)) = true ∧
      (zeros false true).render = (zeros true true).render ∧
      (Statement.constant (zeros false true)).equal (.constant (zeros true true)) = true) := by
  have hequal : Document.equal ⟨[.constant (zeros false true)]⟩ ⟨[.constant (zeros true true)]⟩ =
    true := by decide
  have huniform : (zeros false true).isUniform = true := by decide
  have hread : (Statement.ofLine (zeros false true).render).equal (.constant (zeros false true)) =
    true := by decide
  have hread' : (Statement.ofLine (zeros true true).render).equal (.constant (zeros true true)) =
    true := by decide
  have hrender : (zeros false true).render = (zeros true true).render := by decide
  obtain ⟨hviews, hscalar, hinjective⟩ := views_of_equal
  exact ⟨⟨hequal, hviews _ _ hequal⟩, ⟨huniform, hscalar _ huniform⟩, hread, hread', hrender,
    hinjective (.constant (zeros false true)) (.constant (zeros true true)) hread hread' hrender⟩

end Document
end MaterialText
