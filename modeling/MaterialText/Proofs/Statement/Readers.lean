import MaterialText.Proofs.Text.Runs
import MaterialText.Statement.Parse

namespace MaterialText.Statement

variable {α β ε : Type} {line s t w name rest : Text} {st : Statement}

theorem bind_eq_ok_iff {x : Except ε α} {f : α → Except ε β} {b : β} :
    x >>= f = .ok b ↔ ∃ a, x = .ok a ∧ f a = .ok b := by
  cases x <;> simp [bind, Except.bind]

theorem map_eq_ok_iff {x : Except ε α} {f : α → β} {b : β} :
    x.map f = .ok b ↔ ∃ a, x = .ok a ∧ f a = b := by
  cases x <;> simp [Except.map]

theorem mapError_eq_ok_iff {x : Except ε α} {f : ε → β} {a : α} :
    x.mapError f = .ok a ↔ x = .ok a := by
  cases x with
  | error e => exact iff_of_false nofun nofun
  | ok b =>
    change Except.ok b = Except.ok a ↔ _
    rw [Except.ok.injEq, Except.ok.injEq]

theorem readName_eq_ok_iff : readName s = .ok (name, rest) ↔
    ∃ w, Blanks w ∧ IsWord name ∧ Stops isWordChar rest ∧ s = w ++ (name ++ rest) := by
  refine ⟨fun h => ?_, fun h => ?_⟩
  · simp only [readName] at h
    split at h
    · cases h
    · rename_i hne
      obtain ⟨w, hw, hs⟩ := Word.exists_blanks_append_scan s
      have hscan : Word.scan s = (name, rest) := Except.ok.inj h
      have hword := Word.isWord_scan hne
      have hstop := Word.stops_scan s
      rw [hscan] at hs hword hstop
      exact ⟨w, hw, hword, hstop, hs⟩
  · obtain ⟨w, hw, hname, hstop, rfl⟩ := h
    simp [readName, hw, hname, hstop, hname.1]

theorem readChar_eq_ok_iff {c : Char} (hc : isBlank c = false) :
    readChar c s = .ok rest ↔ ∃ w, Blanks w ∧ s = w ++ c :: rest := by
  refine ⟨fun h => ?_, fun h => ?_⟩
  · unfold readChar at h
    split at h
    · rename_i t ht
      obtain rfl : t = rest := Except.ok.inj h
      obtain ⟨w, hw, hs⟩ := exists_blanks_append_skipBlanks s
      rw [Text.eat_eq_some_iff.mp ht] at hs
      exact ⟨w, hw, hs⟩
    · cases h
  · obtain ⟨w, hw, rfl⟩ := h
    simp [readChar, hw, hc]

theorem parse_eq_ok_iff : parse line = .ok st ↔
    ∃ rest, readStart line = .ok (st, rest) ∧ Blanks rest := by
  rw [parse, mapError_eq_ok_iff, readWhole, bind_eq_ok_iff]
  refine ⟨fun h => ?_, fun h => ?_⟩
  · obtain ⟨⟨a, rest⟩, hstart, h⟩ := h
    split at h
    · rename_i hrest
      obtain rfl : a = st := Except.ok.inj h
      exact ⟨rest, hstart, skipBlanks_eq_nil_iff.mp hrest⟩
    · cases h
  · obtain ⟨rest, hstart, hrest⟩ := h
    exact ⟨(st, rest), hstart, if_pos (skipBlanks_eq_nil_iff.mpr hrest)⟩

theorem readStart_of_eat (h : Text.eat '#' (skipBlanks line) = some t) :
    readStart line = readDirective (skipBlanks t) := by
  rw [readStart, h]

theorem readStart_of_not_eat (h : Text.eat '#' (skipBlanks line) = none) :
    readStart line = if (Word.scan line).1 = "const".toList then readConstant (Word.scan line).2
      else .error ⟨.unrecognized, line⟩ := by
  rw [readStart, h]

theorem eat_hash (hw : Blanks w) (rest : Text) :
    Text.eat '#' (skipBlanks (w ++ '#' :: rest)) = some rest := by
  have hc : isBlank '#' = false := by decide
  simp [hw, hc]

theorem eat_hash_eq_none (hw : Blanks w) (hname : IsWord name) (rest : Text) :
    Text.eat '#' (skipBlanks (w ++ (name ++ rest))) = none := by
  obtain ⟨hne, hall⟩ := hname
  cases name with
  | nil => exact absurd rfl hne
  | cons c t =>
    have hc : isWordChar c = true := hall c (by simp)
    have hhash : c ≠ '#' := by
      intro h
      rw [h] at hc
      cases hc
    simp [Text.eat, hw, not_isBlank_of_isWordChar hc, hhash]

theorem exists_constant_of_readConstant (h : readConstant s = .ok (st, rest)) :
    ∃ c, st = .constant c := by
  simp only [readConstant] at h
  split at h
  · cases h
  · simp only [bind_eq_ok_iff] at h
    obtain ⟨_, -, _, -, value, -, _, -, h⟩ := h
    exact ⟨value.1, (Prod.mk.inj (Except.ok.inj h)).1.symm⟩

theorem exists_of_readDefined (h : readDefined name s = .ok (st, rest)) :
    (∃ value, st = .defineText name value) ∨ ∃ value, st = .defineInteger name value := by
  unfold readDefined at h
  split at h
  · obtain ⟨p, -, hp⟩ := map_eq_ok_iff.mp h
    exact .inl ⟨p.1, (Prod.mk.inj hp).1.symm⟩
  · obtain ⟨p, -, hp⟩ := map_eq_ok_iff.mp h
    exact .inr ⟨p.1, (Prod.mk.inj hp).1.symm⟩

theorem exists_of_readDirective (h : readDirective s = .ok (st, rest)) :
    (∃ name value, st = .defineText name value) ∨ (∃ name value, st = .defineInteger name value) ∨
      ∃ argument, st = .inclusion argument := by
  simp only [readDirective] at h
  split at h
  · obtain ⟨⟨name, after⟩, -, hdefined⟩ := bind_eq_ok_iff.mp h
    exact (exists_of_readDefined hdefined).imp (⟨name, ·⟩) fun h => .inl ⟨name, h⟩
  · split at h
    · exact .inr (.inr ⟨_, (Prod.mk.inj (Except.ok.inj h)).1.symm⟩)
    · cases h

theorem readDirective_ne_constant {c : Constant} : readDirective s ≠ .ok (.constant c, rest) := by
  intro h
  obtain ⟨_, _, h⟩ | ⟨_, _, h⟩ | ⟨_, h⟩ := exists_of_readDirective h <;> cases h

theorem parse_ne_verbatim : parse line ≠ .ok (.verbatim t) := by
  intro h
  obtain ⟨rest, hstart, -⟩ := parse_eq_ok_iff.mp h
  cases heat : Text.eat '#' (skipBlanks line) with
  | some u =>
    rw [readStart_of_eat heat] at hstart
    obtain ⟨_, _, h⟩ | ⟨_, _, h⟩ | ⟨_, h⟩ := exists_of_readDirective hstart <;> cases h
  | none =>
    rw [readStart_of_not_eat heat] at hstart
    split at hstart
    · obtain ⟨c, hc⟩ := exists_constant_of_readConstant hstart
      cases hc
    · cases hstart

end MaterialText.Statement
