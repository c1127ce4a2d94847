import MaterialText.Command.Outcome
import Mathlib.Data.List.Basic

namespace MaterialText.Command

def Switch.option (s : Switch) : Text := "--".toList ++ s.name

/-- What one option chooses, or a path. -/
inductive Choice
  | path (name : Text)
  | format (f : Format)
  | switch (s : Switch)
deriving DecidableEq

namespace Choice

inductive Slot
  | path | format | switch (s : Switch)
deriving DecidableEq

def slot : Choice → Slot
  | .path _ => .path
  | .format _ => .format
  | .switch s => .switch s

/-- The arguments that make a choice before the end of the options. -/
inductive Spelled : Choice → List Text → Prop
  | path {name : Text} (h : name = ['-'] ∨ name.head? ≠ some '-') : Spelled (.path name) [name]
  | formatApart {flag : Text} (h : flag = "--format".toList ∨ flag = "-f".toList) (f : Format) :
      Spelled (.format f) [flag, f.name]
  | formatJoined {flag : Text}
      (h : flag = "--format=".toList ∨ flag = "-f".toList ∨ flag = "-f=".toList) (f : Format) :
      Spelled (.format f) [flag ++ f.name]
  | switch (s : Switch) : Spelled (.switch s) [s.option]

end Choice

/-- The choices of a command line in their order. After the end of the options only a path may
follow. -/
inductive Chooses : List Choice → List Text → Prop
  | nil : Chooses [] []
  | ended : Chooses [] ["--".toList]
  | last (name : Text) : Chooses [.path name] ["--".toList, name]
  | cons {c : Choice} {cs : List Choice} {group rest : List Text} (h : c.Spelled group)
      (hrest : Chooses cs rest) : Chooses (c :: cs) (group ++ rest)

namespace Settings

def choose (s : Settings) : Choice → Except Halt Settings
  | .path name => s.addPath name
  | .format f => s.addFormat f.name
  | .switch switch => s.addSwitch switch

def Holds (s : Settings) : Choice → Prop
  | .path name => s.path? = some name
  | .format f => s.format? = some f
  | .switch switch => s.has switch = true

end Settings

variable {c : Choice} {cs : List Choice} {s : Settings} {arguments group : List Text}

theorem Argument.of_eq_path {name : Text} (h : name = ['-'] ∨ name.head? ≠ some '-') :
    Argument.of name = .path := by
  obtain rfl | h := h
  · rfl
  · unfold Argument.of
    split <;> simp_all

@[simp]
theorem Format.ofName?_name (f : Format) : Format.ofName? f.name = some f := by cases f <;> decide

theorem Settings.addArguments_spelled (h : c.Spelled group) (s : Settings) (rest : List Text) :
    s.addArguments (group ++ rest) = s.choose c >>= fun s => s.addArguments rest := by
  cases h with
  | path h =>
    rw [List.singleton_append, addArguments.eq_def]
    simp only [Argument.of_eq_path h]
    rfl
  | formatApart h f =>
    have hflag : ∀ flag, flag = "--format".toList ∨ flag = "-f".toList →
        Argument.of flag = .format none := by
      rintro flag (rfl | rfl) <;> decide
    have hvalue : Argument.of f.name = .path := by cases f <;> decide
    rw [List.cons_append, List.singleton_append, addArguments.eq_def]
    simp only [hflag _ h, hvalue, if_true]
    rfl
  | @formatJoined flag h f =>
    have hflag : Argument.of (flag ++ f.name) = .format (some f.name) := by
      rcases h with rfl | rfl | rfl <;> cases f <;> decide
    rw [List.singleton_append, addArguments.eq_def]
    simp only [hflag]
    rfl
  | switch switch =>
    have hswitch : Argument.of switch.option = .switch switch := by
      cases switch <;> decide
    rw [List.singleton_append, addArguments.eq_def]
    simp only [hswitch]
    rfl

theorem Settings.addArguments_chooses (h : Chooses cs arguments) (s : Settings) :
    s.addArguments arguments = cs.foldlM choose s := by
  induction h generalizing s with
  | nil => rfl
  | ended => rfl
  | last name =>
    have hend : Argument.of "--".toList = .endOfOptions := by decide
    rw [addArguments.eq_def]
    simp only [hend]
    rfl
  | cons h _ ih =>
    rw [addArguments_spelled h, List.foldlM_cons]
    simp only [ih]

theorem Settings.choose_of_free (h : ∀ c', s.Holds c' → c'.slot ≠ c.slot) :
    ∃ s', s.choose c = .ok s' ∧ ∀ c', s'.Holds c' ↔ s.Holds c' ∨ c' = c := by
  cases c with
  | path name =>
    have hfree : s.path? = none := by
      apply Option.eq_none_iff_forall_ne_some.mpr
      intro name' hname
      exact h (.path name') hname rfl
    refine ⟨{ s with path? := some name }, by rw [choose, addPath, hfree]; rfl, fun c' => ?_⟩
    cases c' <;> simp [Holds, has, hfree, eq_comm]
  | format f =>
    have hfree : s.format? = none := by
      apply Option.eq_none_iff_forall_ne_some.mpr
      intro f' hf
      exact h (.format f') hf rfl
    refine ⟨{ s with format? := some f }, ?_, fun c' => ?_⟩
    · rw [choose, addFormat, Format.ofName?_name, hfree]
      rfl
    · cases c' <;> simp [Holds, has, hfree, eq_comm]
  | switch switch =>
    have hfree : s.has switch = false := by
      apply Bool.eq_false_iff.mpr
      intro hswitch
      exact h (.switch switch) hswitch rfl
    refine ⟨{ s with switches := switch :: s.switches }, ?_, fun c' => ?_⟩
    · rw [choose, addSwitch, hfree]
      rfl
    · cases c' <;> simp [Holds, has, or_comm]

theorem Settings.exists_of_nodup (hcs : (cs.map Choice.slot).Nodup)
    (h : ∀ c ∈ cs, ∀ c', s.Holds c' → c'.slot ≠ c.slot) :
    ∃ s', cs.foldlM Settings.choose s = .ok s' ∧ ∀ c, s'.Holds c ↔ s.Holds c ∨ c ∈ cs := by
  induction cs generalizing s with
  | nil => exact ⟨s, rfl, by simp⟩
  | cons c cs ih =>
    rw [List.map_cons, List.nodup_cons] at hcs
    obtain ⟨s₁, hs₁, hholds₁⟩ := choose_of_free (h c (by simp))
    have hfree : ∀ d ∈ cs, ∀ c', s₁.Holds c' → c'.slot ≠ d.slot := by
      intro d hd c' hc'
      rcases (hholds₁ c').mp hc' with hc' | rfl
      · exact h d (by simp [hd]) c' hc'
      · intro hslot
        exact hcs.1 (List.mem_map.mpr ⟨d, hd, hslot.symm⟩)
    obtain ⟨s₂, hs₂, hholds₂⟩ := ih hcs.2 hfree
    refine ⟨s₂, ?_, fun c' => ?_⟩
    · rw [List.foldlM_cons, hs₁]
      exact hs₂
    · rw [hholds₂, hholds₁, List.mem_cons, or_assoc]

/-- A reader that takes a command line for its choices and no others, if none is made twice. -/
def ReadsChoices (reader : ArgumentReader) : Prop :=
  ∀ cs arguments, Chooses cs arguments → (cs.map Choice.slot).Nodup →
    ∃ s, reader arguments = .ok s ∧ ∀ c, s.Holds c ↔ c ∈ cs

theorem readsChoices_settingsOf : ReadsChoices settingsOf := by
  intro cs arguments h hcs
  have hempty : ∀ c, ¬Settings.Holds {} c := by
    intro c
    cases c <;> exact nofun
  obtain ⟨s, hs, hholds⟩ :=
    Settings.exists_of_nodup hcs fun _ _ c' hc' => absurd hc' (hempty c')
  refine ⟨s, ?_, fun c => ?_⟩
  · rw [settingsOf, Settings.addArguments_chooses h, hs]
    rfl
  · rw [hholds, or_iff_right (hempty c)]

theorem Choice.Spelled.explain_not_mem (h : c.Spelled group) (hc : c ≠ .switch .explain) :
    Switch.option .explain ∉ group := by
  cases h with
  | @path name h =>
    rw [List.mem_singleton]
    rintro rfl
    rcases h with h | h
    · cases h
    · exact h rfl
  | formatApart h f => rcases h with rfl | rfl <;> cases f <;> decide
  | formatJoined h f => rcases h with rfl | rfl | rfl <;> cases f <;> decide
  | switch s =>
    cases s with
    | explain => exact absurd rfl hc
    | crlf => decide
    | trailingNewline => decide

theorem Chooses.erase_explain (h : Chooses cs arguments) (hmem : .switch .explain ∈ cs) :
    Chooses (cs.erase (.switch .explain)) (arguments.erase (Switch.option .explain)) := by
  induction h with
  | nil => cases hmem
  | ended => cases hmem
  | last name => simp at hmem
  | @cons c cs group rest h hrest ih =>
    by_cases hc : c = .switch .explain
    · subst hc
      cases h
      rw [List.erase_cons_head, List.singleton_append, List.erase_cons_head]
      exact hrest
    · have hmem' := (List.mem_cons.mp hmem).resolve_left (Ne.symm hc)
      rw [List.erase_cons_tail (by simpa using hc), List.erase_append_right _ (h.explain_not_mem hc)]
      exact .cons h (ih hmem')

end MaterialText.Command
