import MaterialText.Cursor
import MaterialText.Proofs.Numeral.IntegerLiteral
import MaterialText.Proofs.Single.LiteralGrammar
import MaterialText.Proofs.Text.Runs

namespace MaterialText

variable {line s t w rest : Text} {c : Char}

theorem utf8Size_of_isWordChar (h : isWordChar c = true) : c.utf8Size = 1 := by
  simp only [isWordChar, Bool.or_eq_true, beq_iff_eq] at h
  rcases h with h | rfl
  · have hn := isAlphanum_iff.mp h
    have hc : c.toNat ≤ 127 := by omega
    exact Char.utf8Size_eq_one_iff.mpr hc
  · rfl

theorem utf8Size_of_isAlphanum (h : c.isAlphanum = true) : c.utf8Size = 1 :=
  utf8Size_of_isWordChar (by simp [isWordChar, h])

theorem utf8Size_of_isDigit (h : c.isDigit = true) : c.utf8Size = 1 :=
  utf8Size_of_isWordChar (Integer.isWordChar_of_isDigit h)

theorem byteLength_of_utf8Size (h : ∀ d ∈ s, d.utf8Size = 1) : Text.byteLength s = s.length := by
  induction s with
  | nil => rfl
  | cons d s ih =>
    rw [Text.byteLength_cons, h d List.mem_cons_self,
      ih fun e he => h e (List.mem_cons_of_mem d he), List.length_cons, Nat.add_comm]

theorem utf8Size_of_isFloatSuffix (h : FloatLiteral.isSuffix c = true) : c.utf8Size = 1 := by
  simp only [FloatLiteral.isSuffix, Bool.or_eq_true, beq_iff_eq] at h
  rcases h with rfl | rfl <;> rfl

theorem utf8Size_of_isExponentMark (h : FloatLiteral.isExponentMark c = true) :
    c.utf8Size = 1 := by
  rcases FloatLiteral.isExponentMark_iff.mp h with rfl | rfl <;> rfl

theorem utf8Size_of_isSign (h : Motion.isSign c = true) : c.utf8Size = 1 := by
  simp only [Motion.isSign, Bool.or_eq_true, beq_iff_eq] at h
  rcases h with rfl | rfl <;> rfl

theorem FloatLiteral.exists_ofText? {l : FloatLiteral} (h : FloatLiteral.scan s = some (l, rest)) :
    ∃ w, s = w ++ rest ∧ FloatLiteral.ofText? w = l.value? := by
  obtain ⟨w, hspells, hs⟩ := FloatLiteral.exists_of_scan h
  refine ⟨w, hs, ?_⟩
  have hscan : FloatLiteral.scan w = some (l, []) := by
    cases hspells with
    | parts hsign hwhole hpoint hne hexponent =>
      have hrun := FloatLiteral.scan_run hsign hwhole hpoint hne hexponent stops_nil
        (fun _ _ => stops_nil) (fun _ => stops_nil)
      rwa [List.append_nil] at hrun
  rw [FloatLiteral.ofText?, hscan, Option.bind_some, if_pos rfl]

namespace Cursor

/-- The cursor that has a given end of its line before it. -/
def before (line s : Text) : Cursor := ⟨line, Text.byteLength line - Text.byteLength s⟩

theorem before_line (line : Text) : before line line = start line := by
  rw [before, Nat.sub_self, start]

theorem before_append (p s : Text) : before (p ++ s) s = ⟨p ++ s, Text.byteLength p⟩ := by
  rw [before, Text.byteLength_append, Nat.add_sub_cancel]

@[simp]
theorem split?_before (p s : Text) : (before (p ++ s) s).split? = some (p, s) := by
  rw [before_append]
  exact Text.splitBytes?_append p s

theorem remaining?_before (h : s <:+ line) : (before line s).remaining? = some s := by
  obtain ⟨p, rfl⟩ := h
  rw [remaining?, split?_before]
  rfl

theorem advance_before (h : w ++ s <:+ line) {n : Nat} (hn : n = Text.byteLength w) :
    (before line (w ++ s)).advance n = before line s := by
  obtain ⟨p, rfl⟩ := h
  have hs : before (p ++ (w ++ s)) s = ⟨p ++ (w ++ s), Text.byteLength (p ++ w)⟩ := by
    rw [← List.append_assoc, before_append]
  rw [before_append, hs, Text.byteLength_append, hn]
  rfl

theorem advance_before_cons (h : c :: s <:+ line) {n : Nat} (hn : n = c.utf8Size) :
    (before line (c :: s)).advance n = before line s :=
  advance_before (w := [c]) h hn

theorem position_before_sub (h : w ++ s <:+ line) :
    (before line s).position - (before line (w ++ s)).position = Text.byteLength w := by
  rw [← advance_before h rfl]
  exact Nat.add_sub_cancel_left ..

theorem position_before_le (h : s <:+ t) : (before line t).position ≤ (before line s).position := by
  obtain ⟨w, rfl⟩ := h
  simp only [before, Text.byteLength_append]
  omega

theorem slice?_before (h : w ++ s <:+ line) :
    Text.slice? (before line (w ++ s)).position (before line s).position line = some w := by
  obtain ⟨p, rfl⟩ := h
  rw [before_append, ← List.append_assoc, before_append, Text.slice?, Text.splitBytes?_append,
    Option.bind_some, Text.splitBytes?_append]
  rfl

end Cursor

namespace Motion
open Cursor

theorem bind_of_eq {α β : Type} {m : Motion α} {k : α → Motion β} {c c' : Cursor} {a : α}
    (h : m c = some (a, c')) : (m >>= k) c = k a c' := by
  change (m c).bind (fun p => k p.1 p.2) = k a c'
  rw [h]
  rfl

theorem position_apply (c : Cursor) : position c = some (c.position, c) := rfl

theorem advance_apply (n : Nat) (c : Cursor) : advance n c = some ((), c.advance n) := rfl

theorem remaining_before (h : s <:+ line) : remaining (before line s) = some (s, before line s) := by
  rw [remaining, remaining?_before h]
  rfl

theorem slice_before (h : w ++ s <:+ line) :
    slice (before line (w ++ s)).position (before line s).position (before line s) =
      some (w, before line s) := by
  unfold slice
  have hline : (before line s).line = line := rfl
  rw [hline, slice?_before h]
  rfl

theorem peek_before (h : s <:+ line) : peek (before line s) = some (s.head?, before line s) := by
  rw [peek, bind_of_eq (remaining_before h)]
  rfl

theorem startsWith_before (h : s <:+ line) (t : Text) :
    startsWith t (before line s) = some (t.isPrefixOf s, before line s) := by
  rw [startsWith, bind_of_eq (remaining_before h)]
  rfl

theorem eat_before (h : s <:+ line) (d : Char) : eat d (before line s) =
    some ((Text.eat d s).isSome, before line ((Text.eat d s).getD s)) := by
  rw [eat, bind_of_eq (peek_before h)]
  cases s with
  | nil => rfl
  | cons e s =>
    rw [List.head?_cons, Text.eat]
    by_cases he : e = d
    · rw [if_pos (congrArg some he), if_pos he, bind_of_eq (advance_apply _ _),
        advance_before_cons h (by rw [he])]
      rfl
    · rw [if_neg (by simpa using he), if_neg he]
      rfl

theorem eat_cons_before (h : c :: s <:+ line) :
    eat c (before line (c :: s)) = some (true, before line s) := by
  rw [eat_before h, Text.eat_eq_some_iff.mpr rfl]
  rfl

theorem eat_before_of_ne (h : s <:+ line) (hs : ∀ t, s ≠ c :: t) :
    eat c (before line s) = some (false, before line s) := by
  have heat : Text.eat c s = none :=
    Option.eq_none_iff_forall_ne_some.mpr fun t ht => hs t (Text.eat_eq_some_iff.mp ht)
  rw [eat_before h, heat]
  rfl

theorem skipOne_before {q : Char → Bool} (hq : ∀ d, q d = true → d.utf8Size = 1)
    (h : s <:+ line) : skipOne q (before line s) = some ((), before line (Text.dropOne q s)) := by
  rw [skipOne, bind_of_eq (peek_before h)]
  cases s with
  | nil => rfl
  | cons d s =>
    rw [List.head?_cons, Option.any_some, Text.dropOne]
    split
    · rename_i hd
      rw [advance_apply, advance_before_cons h (hq d hd).symm]
    · rfl

section Fold
variable {α : Type} {step : α → Char → Option α} {size : Char → Nat} {a b : α} {q : Char → Bool}
  (hsize : ∀ d, 0 < size d)

theorem foldWhile_eq (c : Cursor) : foldWhile step size hsize a c = c.remaining?.bind fun
    | [] => some (a, c)
    | d :: _ =>
      match step a d with
      | some b => foldWhile step size hsize b (c.advance (size d))
      | none => some (a, c) := by
  rw [foldWhile]
  split <;> rename_i hrest <;> rw [hrest] <;> rfl

/-- The loop takes up a run of characters, each with its own bytes, up to one that it cannot. -/
theorem foldWhile_before (h : w ++ s <:+ line) (hw : w.foldlM step a = some b)
    (hn : ∀ d ∈ w, size d = d.utf8Size) (hs : ∀ d ∈ s.head?, step b d = none) :
    foldWhile step size hsize a (before line (w ++ s)) = some (b, before line s) := by
  induction w generalizing a with
  | nil =>
    cases hw
    rw [List.nil_append] at h ⊢
    rw [foldWhile_eq hsize, remaining?_before h, Option.bind_some]
    cases s with
    | nil => rfl
    | cons d s => simp only [hs d rfl]
  | cons d w ih =>
    obtain ⟨a', ha', hw⟩ := Option.bind_eq_some_iff.mp hw
    rw [List.cons_append] at h ⊢
    rw [foldWhile_eq, remaining?_before h, Option.bind_some]
    simp only [ha']
    rw [advance_before_cons h (hn d List.mem_cons_self)]
    exact ih ((List.suffix_cons d _).trans h) hw fun e he => hn e (List.mem_cons_of_mem d he)

theorem foldWhile_run (hq : ∀ a d, q d = false → step a d = none)
    (hn : ∀ d, q d = true → size d = d.utf8Size) (h : s <:+ line)
    (hrun : (s.takeWhile q).foldlM step a = some b) :
    foldWhile step size hsize a (before line s) = some (b, before line (s.dropWhile q)) := by
  have hs : s.takeWhile q ++ s.dropWhile q = s := List.takeWhile_append_dropWhile
  have hloop := foldWhile_before hsize (hs.symm ▸ h) hrun (fun d hd => hn d (of_mem_takeWhile hd))
    (fun d hd => hq b d (stops_dropWhile q s d hd))
  rwa [hs] at hloop

theorem foldWhile_kind (hn : ∀ d, q d = true → size d = d.utf8Size) (h : s <:+ line) :
    foldWhile (fun _ d => if q d then some () else none) size hsize () (before line s) =
      some ((), before line (s.dropWhile q)) := by
  have hrun (w : Text) (hw : ∀ d ∈ w, q d = true) :
      w.foldlM (fun _ d => if q d then some () else none) () = some () := by
    induction w with
    | nil => rfl
    | cons d w ih =>
      rw [List.foldlM_cons, if_pos (hw d List.mem_cons_self)]
      exact ih fun e he => hw e (List.mem_cons_of_mem d he)
  exact foldWhile_run hsize (fun _ _ hd => if_neg (Bool.eq_false_iff.mp hd)) hn h
    (hrun _ fun _ => of_mem_takeWhile)

end Fold

theorem skipBlanks_before (h : s <:+ line) :
    skipBlanks (before line s) = some ((), before line (MaterialText.skipBlanks s)) :=
  foldWhile_kind Char.utf8Size_pos (fun _ _ => rfl) h

theorem skipRun_before {q : Char → Bool} (hq : ∀ d, q d = true → d.utf8Size = 1)
    (h : s <:+ line) : skipRun q (before line s) = some ((), before line (s.dropWhile q)) :=
  foldWhile_kind (fun _ => Nat.one_pos) (fun d hd => (hq d hd).symm) h

theorem takeRest_before (h : s <:+ line) :
    takeRest (before line s) = some (s, before line []) := by
  rw [takeRest, bind_of_eq (remaining_before h)]
  rfl

/-- What a reader leaves of a text: all of it where it finds nothing. -/
def left {α : Type} (s : Text) (found : Option (α × Text)) : Text := found.elim s Prod.snd

theorem word_before (h : s <:+ line) :
    word (before line s) = some ((Word.scan s).1, before line (Word.scan s).2) := by
  have hblanks : MaterialText.skipBlanks s <:+ line := (skipBlanks_suffix s).trans h
  have hscan := Word.scan_append s
  rw [word, bind_of_eq (skipBlanks_before h), bind_of_eq (position_apply _),
    bind_of_eq (skipRun_before (fun _ => utf8Size_of_isWordChar) hblanks),
    bind_of_eq (position_apply _)]
  rw [← hscan] at hblanks
  have hslice := slice_before hblanks
  rwa [hscan] at hslice

theorem quotedBody_nil {first : Nat} {value : Text} {c : Cursor} (h : c.remaining? = some []) :
    quotedBody first value c = some (none, c.moveTo first) := by
  rw [quotedBody]
  split <;> rename_i heq <;> rw [h] at heq <;> cases heq

theorem quotedBody_cons {first : Nat} {value : Text} {c : Cursor} {d : Char}
    (h : c.remaining? = some (d :: s)) : quotedBody first value c =
      if d = '"' then some (some value, c.advance 1)
      else if d = '\\' then (c.advance 1).remaining?.bind fun t =>
        t.head?.elim (some (none, c.moveTo first)) fun e =>
          quotedBody first (value ++ [Quoted.denoted e]) ((c.advance 1).advance e.utf8Size)
      else quotedBody first (value ++ [d]) (c.advance d.utf8Size) := by
  rw [quotedBody]
  split <;> rename_i heq <;> rw [h] at heq <;> cases heq
  split_ifs
  · rfl
  · split <;> rename_i hnext <;> rw [hnext] <;> rfl
  · rfl

theorem quotedBody_before {first : Nat} {value : Text} (h : s <:+ line) :
    quotedBody first value (before line s) = some ((Quoted.body s).elim (none, ⟨line, first⟩)
      fun p => (some (value ++ p.1), before line p.2)) := by
  fun_induction Quoted.body s generalizing value with
  | case1 =>
    rw [quotedBody_nil (remaining?_before h)]
    rfl
  | case2 s =>
    rw [quotedBody_cons (remaining?_before h), if_pos rfl, advance_before_cons (n := 1) h rfl,
      Option.elim_some, List.append_nil]
  | case3 e s ih =>
    -- The character after a backslash is passed whatever it is.
    have hnext : e :: s <:+ line := (List.suffix_cons _ _).trans h
    rw [quotedBody_cons (remaining?_before h), if_neg (by decide), if_pos rfl,
      advance_before_cons (n := 1) h rfl, remaining?_before hnext, Option.bind_some,
      List.head?_cons, Option.elim_some, advance_before_cons hnext rfl,
      ih ((List.suffix_cons e s).trans hnext)]
    simp only [Option.elim_map, Function.comp_def, List.append_assoc, List.singleton_append]
  | case4 s _ hne =>
    -- A backslash at the end has no character to take.
    have hs : s = [] := by
      cases s with
      | nil => rfl
      | cons e s => exact (hne e s rfl rfl).elim
    rw [hs] at h ⊢
    rw [quotedBody_cons (remaining?_before h), if_neg (by decide), if_pos rfl,
      advance_before_cons (n := 1) h rfl, remaining?_before ((List.suffix_cons _ _).trans h)]
    rfl
  | case5 d s hquote _ hback ih =>
    rw [quotedBody_cons (remaining?_before h), if_neg hquote, if_neg hback,
      advance_before_cons h rfl, ih ((List.suffix_cons d s).trans h)]
    simp only [Option.elim_map, Function.comp_def, List.append_assoc, List.singleton_append]

theorem quoted_before (h : s <:+ line) : quoted (before line s) =
    some ((Quoted.scan s).map Prod.fst, before line (left s (Quoted.scan s))) := by
  have hblanks : MaterialText.skipBlanks s <:+ line := (skipBlanks_suffix s).trans h
  rw [quoted, bind_of_eq (position_apply _), bind_of_eq (skipBlanks_before h),
    bind_of_eq (eat_before hblanks _), Quoted.scan]
  cases heat : Text.eat '"' (MaterialText.skipBlanks s) with
  | none => rfl
  | some t =>
    rw [Text.eat_eq_some_iff.mp heat] at hblanks
    rw [Option.isSome_some, if_pos rfl, Option.getD_some,
      quotedBody_before ((List.suffix_cons _ t).trans hblanks), Option.bind_some]
    cases Quoted.body t <;> rfl

theorem minus_before (h : s <:+ line) :
    minus (before line s) = some ((Integer.sign s).1, before line (Integer.sign s).2) := by
  rw [minus]
  fun_cases Integer.sign s with
  | case1 t =>
    rw [bind_of_eq (eat_cons_before h), if_pos rfl,
      bind_of_eq (skipBlanks_before ((List.suffix_cons _ t).trans h))]
    rfl
  | case2 _ hne =>
    rw [bind_of_eq (eat_before_of_ne h hne)]
    rfl

theorem marker_before (h : s <:+ line) :
    marker (before line s) = some ((Integer.marker s).1, before line (Integer.marker s).2) := by
  rw [marker, bind_of_eq (startsWith_before h _), bind_of_eq (startsWith_before h _)]
  fun_cases Integer.marker s with
  | case1 t =>
    have hnext : (before line ('0' :: 'x' :: t)).advance 2 = before line t :=
      advance_before (w := ['0', 'x']) h rfl
    rw [if_pos (by simp), bind_of_eq (advance_apply _ _), hnext]
    rfl
  | case2 t =>
    have hnext : (before line ('0' :: 'X' :: t)).advance 2 = before line t :=
      advance_before (w := ['0', 'X']) h rfl
    rw [if_pos (by simp), bind_of_eq (advance_apply _ _), hnext]
    rfl
  | case3 t hlower hupper =>
    -- A zero with no letter of the mark after it is passed alone.
    have hmark : ¬(List.isPrefixOf ['0', 'x'] ('0' :: t) || List.isPrefixOf ['0', 'X'] ('0' :: t)) =
        true := by
      cases t with
      | nil => decide
      | cons d t =>
        have hx : d ≠ 'x' := fun hd => hlower t (by rw [hd])
        have hX : d ≠ 'X' := fun hd => hupper t (by rw [hd])
        simp [hx.symm, hX.symm]
    rw [if_neg hmark, bind_of_eq (startsWith_before h _), if_pos (by simp),
      bind_of_eq (advance_apply _ _), advance_before_cons (n := 1) h rfl]
    rfl
  | case4 _ _ _ hzero =>
    -- Without a zero nothing is passed.
    have hstart (t : Text) : List.isPrefixOf ('0' :: t) s = false := by
      cases s with
      | nil => rfl
      | cons d s =>
        have hd : d ≠ '0' := fun hd => hzero s (by rw [hd])
        simp [List.isPrefixOf, hd.symm]
    rw [hstart, hstart, if_neg (by decide), bind_of_eq (startsWith_before h _), hstart,
      if_neg (by decide)]
    rfl

theorem foldlM_addDigit {radix : Nat} (hw : ∀ d ∈ w, Numeral.isDigitOf radix d = true)
    (v : Int64) (n : Nat) : w.foldlM (addDigit radix) (v, n) =
      some (w.foldl (fun v d => v * Int64.ofNat radix + Int64.ofNat ((Numeral.digit? d).getD 0)) v,
        n + w.length) := by
  induction w generalizing v n with
  | nil => rfl
  | cons d w ih =>
    have hd : addDigit radix (v, n) d = some
        (v * Int64.ofNat radix + Int64.ofNat ((Numeral.digit? d).getD 0), n + 1) :=
      if_pos (hw d List.mem_cons_self)
    rw [List.foldlM_cons, hd, Option.bind_eq_bind, Option.bind_some,
      ih fun e he => hw e (List.mem_cons_of_mem d he), List.foldl_cons, List.length_cons,
      Nat.add_assoc, Nat.add_comm 1]

theorem magnitude_before {radix : Nat} (h : s <:+ line) : magnitude radix (before line s) =
    some ((Integer.wrapped radix (s.takeWhile (Numeral.isDigitOf radix)),
      (s.takeWhile (Numeral.isDigitOf radix)).length),
      before line (s.dropWhile (Numeral.isDigitOf radix))) := by
  have hfold := foldlM_addDigit (w := s.takeWhile (Numeral.isDigitOf radix))
    (fun _ => of_mem_takeWhile) 0 0
  rw [Nat.zero_add] at hfold
  exact foldWhile_run (fun _ => Nat.one_pos) (fun _ _ hd => if_neg (Bool.eq_false_iff.mp hd))
    (fun _ hd => (utf8Size_of_isAlphanum (Integer.isAlphanum_of_isDigitOf hd)).symm) h hfold

theorem integer_before (h : s <:+ line) : integer (before line s) =
    some ((Integer.scan s).map Prod.fst, before line (left s (Integer.scan s))) := by
  have hblanks : MaterialText.skipBlanks s <:+ line := (skipBlanks_suffix s).trans h
  have hsign := (Integer.sign_suffix (MaterialText.skipBlanks s)).trans hblanks
  have hmarker := (Integer.marker_suffix (Integer.sign (MaterialText.skipBlanks s)).2).trans hsign
  rw [integer, bind_of_eq (position_apply _), bind_of_eq (skipBlanks_before h),
    bind_of_eq (minus_before hblanks), bind_of_eq (marker_before hsign),
    bind_of_eq (magnitude_before hmarker), Integer.scan]
  simp only [List.length_eq_zero_iff]
  split
  · rfl
  · rw [bind_of_eq (skipOne_before
      (fun _ hd => utf8Size_of_isAlphanum (Integer.isAlphanum_of_isSuffix hd))
      ((List.dropWhile_suffix _).trans hmarker))]
    rfl

theorem digits_before (h : s <:+ line) : digits (before line s) =
    some ((FloatLiteral.digits s).length, before line (FloatLiteral.afterDigits s)) := by
  have hs := FloatLiteral.digits_append s
  have hcount : (before line (FloatLiteral.afterDigits s)).position - (before line s).position =
      (FloatLiteral.digits s).length := by
    have hbytes := position_before_sub (hs.symm ▸ h)
    rwa [hs, byteLength_of_utf8Size fun d hd =>
      utf8Size_of_isDigit (FloatLiteral.digits_spec s d hd)] at hbytes
  rw [digits, bind_of_eq (position_apply _),
    bind_of_eq (skipRun_before (fun _ => utf8Size_of_isDigit) h), bind_of_eq (position_apply _)]
  exact congrArg (fun n => some (n, _)) hcount

theorem point_before (h : s <:+ line) : point (before line s) =
    some ((FloatLiteral.point s).1.length, before line (FloatLiteral.point s).2) := by
  rw [point]
  fun_cases FloatLiteral.point s with
  | case1 t =>
    rw [bind_of_eq (eat_cons_before h), if_pos rfl]
    exact digits_before ((List.suffix_cons _ t).trans h)
  | case2 _ hne =>
    rw [bind_of_eq (eat_before_of_ne h hne)]
    rfl

theorem dropOne_isSign (s : Text) : Text.dropOne isSign s = (FloatLiteral.sign s).2 := by
  fun_cases FloatLiteral.sign s with
  | case1 => rfl
  | case2 => rfl
  | case3 _ hminus hplus =>
    cases s with
    | nil => rfl
    | cons d s =>
      have hd : ¬isSign d = true := by
        intro hd
        simp only [isSign, Bool.or_eq_true, beq_iff_eq] at hd
        rcases hd with rfl | rfl
        · exact hplus s rfl
        · exact hminus s rfl
      exact if_neg hd

theorem skipSign_before (h : s <:+ line) :
    skipOne isSign (before line s) = some ((), before line (FloatLiteral.sign s).2) := by
  rw [skipOne_before (fun _ => utf8Size_of_isSign) h, dropOne_isSign]

/-- An exponent that is refused is passed up to where its digits are missing. -/
theorem exponent_before (h : s <:+ line) : exponent (before line s) =
    some ((FloatLiteral.exponentPart s).isSome,
      before line ((FloatLiteral.exponentPart s).elim (FloatLiteral.sign s.tail).2 Prod.snd)) := by
  rw [exponent, bind_of_eq (peek_before h)]
  cases s with
  | nil => rfl
  | cons d s =>
    have hs : s <:+ line := (List.suffix_cons d s).trans h
    have hsign := (FloatLiteral.sign_suffix s).trans hs
    rw [List.head?_cons, Option.any_some, FloatLiteral.exponentPart, List.tail_cons]
    by_cases hd : FloatLiteral.isExponentMark d = true
    · rw [if_pos hd, if_pos hd, bind_of_eq (advance_apply _ _),
        advance_before_cons h (utf8Size_of_isExponentMark hd).symm,
        bind_of_eq (skipSign_before hs), bind_of_eq (digits_before hsign)]
      have hdigits := FloatLiteral.digits_append (FloatLiteral.sign s).2
      -- A mark without digits is refused, but only after it and its sign have been passed.
      by_cases hnone : FloatLiteral.digits (FloatLiteral.sign s).2 = []
      · rw [hnone, List.nil_append] at hdigits
        rw [if_pos hnone, hnone, hdigits]
        rfl
      · rw [if_neg hnone]
        have hpos : (FloatLiteral.digits (FloatLiteral.sign s).2).length ≠ 0 := by
          simpa using hnone
        simp only [bne_iff_ne.mpr hpos]
        rfl
    · rw [if_neg hd, if_neg hd]
      rfl

theorem mantissa_before (h : s <:+ line) : mantissa (before line s) =
    some ((FloatLiteral.digits (FloatLiteral.sign s).2).length +
      (FloatLiteral.point (FloatLiteral.afterDigits (FloatLiteral.sign s).2)).1.length,
      before line (FloatLiteral.point (FloatLiteral.afterDigits (FloatLiteral.sign s).2)).2) := by
  have hsign := (FloatLiteral.sign_suffix s).trans h
  have hafter := (FloatLiteral.afterDigits_suffix (FloatLiteral.sign s).2).trans hsign
  rw [mantissa, bind_of_eq (skipSign_before h), bind_of_eq (digits_before hsign),
    bind_of_eq (point_before hafter)]
  rfl

/-- A literal is passed up to its suffix; one that is refused leaves the cursor on the way. -/
theorem literal_before (h : s <:+ line) : ∃ u,
    literal (before line s) = some ((FloatLiteral.scan s).isSome, before line u) ∧
      ∀ l rest, FloatLiteral.scan s = some (l, rest) → u = rest := by
  have hpoint : (FloatLiteral.point (FloatLiteral.afterDigits (FloatLiteral.sign s).2)).2 <:+ line :=
    (FloatLiteral.point_suffix _).trans ((FloatLiteral.afterDigits_suffix _).trans
      ((FloatLiteral.sign_suffix s).trans h))
  have hcount : (FloatLiteral.digits (FloatLiteral.sign s).2).length +
      (FloatLiteral.point (FloatLiteral.afterDigits (FloatLiteral.sign s).2)).1.length = 0 ↔
        FloatLiteral.digits (FloatLiteral.sign s).2 = [] ∧
          (FloatLiteral.point (FloatLiteral.afterDigits (FloatLiteral.sign s).2)).1 = [] := by
    simp only [Nat.add_eq_zero_iff, List.length_eq_zero_iff]
  rw [literal, bind_of_eq (mantissa_before h), FloatLiteral.scan]
  -- Without a digit no exponent is looked for.
  by_cases hnone : FloatLiteral.digits (FloatLiteral.sign s).2 = [] ∧
      (FloatLiteral.point (FloatLiteral.afterDigits (FloatLiteral.sign s).2)).1 = []
  · rw [if_pos (hcount.mpr hnone)]
    simp only [if_pos hnone]
    exact ⟨_, rfl, fun l rest hscan => by cases hscan⟩
  · rw [if_neg (mt hcount.mp hnone), exponent_before hpoint]
    simp only [if_neg hnone]
    cases FloatLiteral.exponentPart
        (FloatLiteral.point (FloatLiteral.afterDigits (FloatLiteral.sign s).2)).2 with
    | none => exact ⟨_, rfl, fun l rest hscan => by cases hscan⟩
    | some p =>
      refine ⟨p.2, rfl, fun l rest hscan => ?_⟩
      cases hscan
      rfl

theorem float_before (h : s <:+ line) : float (before line s) =
    some ((FloatLiteral.read s).map Prod.fst, before line (left s (FloatLiteral.read s))) := by
  have hblanks : MaterialText.skipBlanks s <:+ line := (skipBlanks_suffix s).trans h
  obtain ⟨u, hliteral, hrest⟩ := literal_before hblanks
  rw [float, bind_of_eq (position_apply _), bind_of_eq (skipBlanks_before h),
    bind_of_eq (position_apply _), bind_of_eq hliteral, FloatLiteral.read]
  cases hscan : FloatLiteral.scan (MaterialText.skipBlanks s) with
  | none => rfl
  | some p =>
    obtain ⟨w, hw, hvalue⟩ := FloatLiteral.exists_ofText? hscan
    rw [hrest p.1 p.2 hscan, Option.isSome_some, if_pos rfl, bind_of_eq (position_apply _), hw,
      bind_of_eq (slice_before (hw ▸ hblanks)), Option.bind_some, ← hvalue]
    cases FloatLiteral.ofText? w with
    | none => rfl
    | some x =>
      dsimp only
      rw [bind_of_eq (skipOne_before (fun _ => utf8Size_of_isFloatSuffix)
        ((List.suffix_append w p.2).trans (hw ▸ hblanks)))]
      rfl

end Motion

namespace Cursor

/-- What a reader finds, and what it leaves. -/
def reading {α : Type} (report : α → Finding) (s : Text) (found : Option (α × Text)) :
    Finding × Text :=
  (.ofOption report (found.map Prod.fst), Motion.left s found)

/-- What a step finds in the text that remains, and what it leaves of it. -/
def Step.read (s : Text) : Step → Finding × Text
  | .skipBlanks => (.nothing, MaterialText.skipBlanks s)
  | .word => (.text (Word.scan s).1, (Word.scan s).2)
  | .quoted => reading .text s (Quoted.scan s)
  | .integer => reading .integer s (Integer.scan s)
  | .float => reading .float s (FloatLiteral.read s)
  | .eat d => (.truth (Text.eat d s).isSome, (Text.eat d s).getD s)
  | .startsWith t => (.truth (t.isPrefixOf s), s)
  | .remaining => (.text s, s)
  | .takeRest => (.text s, [])

theorem left_suffix {α : Type} {found : Option (α × Text)}
    (h : ∀ a rest, found = some (a, rest) → rest <:+ s) : Motion.left s found <:+ s := by
  cases found with
  | none => exact List.suffix_refl s
  | some p => exact h p.1 p.2 rfl

theorem Step.read_suffix (s : Text) (step : Step) : (step.read s).2 <:+ s := by
  cases step with
  | skipBlanks => exact skipBlanks_suffix s
  | word => exact Word.scan_suffix s
  | quoted => exact left_suffix fun _ _ => Quoted.scan_suffix
  | integer => exact left_suffix fun _ _ => Integer.scan_suffix
  | float => exact left_suffix fun _ _ => FloatLiteral.read_suffix
  | eat d =>
    cases h : Text.eat d s with
    | none => simp [Step.read, h]
    | some t =>
      rw [Step.read, h, Text.eat_eq_some_iff.mp h]
      exact List.suffix_cons d t
  | startsWith => exact List.suffix_refl s
  | remaining => exact List.suffix_refl s
  | takeRest => exact List.nil_suffix

theorem perform_before (h : s <:+ line) (step : Step) :
    perform step (before line s) = some ((step.read s).1, before line (step.read s).2) := by
  cases step with
  | skipBlanks =>
    rw [perform, Motion.bind_of_eq (Motion.skipBlanks_before h)]
    rfl
  | word =>
    rw [perform, Motion.bind_of_eq (Motion.word_before h)]
    rfl
  | quoted =>
    rw [perform, Motion.bind_of_eq (Motion.quoted_before h)]
    rfl
  | integer =>
    rw [perform, Motion.bind_of_eq (Motion.integer_before h)]
    rfl
  | float =>
    rw [perform, Motion.bind_of_eq (Motion.float_before h)]
    rfl
  | eat d =>
    rw [perform, Motion.bind_of_eq (Motion.eat_before h d)]
    rfl
  | startsWith t =>
    rw [perform, Motion.bind_of_eq (Motion.startsWith_before h t)]
    rfl
  | remaining =>
    rw [perform, Motion.bind_of_eq (Motion.remaining_before h)]
    rfl
  | takeRest =>
    rw [perform, Motion.bind_of_eq (Motion.takeRest_before h)]
    rfl

-- A marker without digits after a minus sign and blanks: all of them are given back.
example : perform .integer (start " - 0xq".toList) = some (.nothing, start " - 0xq".toList) := by
  rw [← before_line, perform_before (List.suffix_refl _)]
  decide

end Cursor
end MaterialText
