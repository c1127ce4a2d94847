import MaterialText.Proofs.Json.Grammar

namespace MaterialText.Json
open FloatLiteral Numeral

variable {α : Type} {P : Text → α → Prop} {item : Text → Option (α × Text)}
  {s t u w rest sg whole pt digits : Text} {a : α} {as : List α} {v : Value}
  {c d close : Char} {q : ℚ} {n : Nat} {negative : Bool}

def skipSpace (s : Text) : Text := s.dropWhile isSpace

def minus : Text → Bool × Text
  | '-' :: rest => (true, rest)
  | s => (false, s)

def fraction? : Text → Option (Text × Text)
  | '.' :: rest =>
    if FloatLiteral.digits rest = [] then none
    else some (FloatLiteral.digits rest, afterDigits rest)
  | s => some ([], s)

def number? (s : Text) : Option (ℚ × Text) :=
  let signed := minus s
  let whole := FloatLiteral.digits signed.2
  if whole = [] ∨ (whole.head? = some '0' ∧ whole ≠ ['0']) then none
  else (fraction? (afterDigits signed.2)).bind fun f => (exponentPart f.2).map fun e =>
    (withSign signed.1 (magnitude ⟨signed.1, whole, f.1, e.1⟩), e.2)

def code? (s : Text) : Option (Nat × Text) :=
  if (s.take 4).length = 4 ∧ (s.take 4).all (isDigitOf 16) then
    some (Numeral.value 16 (s.take 4), s.drop 4)
  else none

def lowHalf? : Text → Option (Nat × Text)
  | '\\' :: 'u' :: rest => (code? rest).filter fun p => IsLowHalf p.1
  | _ => none

def escaped? : Text → Option (Char × Text)
  | [] => none
  | l :: rest =>
    if l = 'u' then
      (code? rest).bind fun p =>
        if IsHighHalf p.1 then (lowHalf? p.2).map fun q => (ofHalves p.1 q.1, q.2)
        else if IsLowHalf p.1 then none
        else some (Char.ofNat p.1, p.2)
    else (letters.lookup l).map (·, rest)

def character? : Text → Option (Char × Text)
  | [] => none
  | c :: rest =>
    if c = '\\' then escaped? rest
    else if c.toNat < 0x20 ∨ c = '"' then none
    else some (c, rest)

/-- The characters up to the next quote, of which there are fewer than the bound, and what follows
it. -/
def characters? : Nat → Text → Option (Text × Text)
  | 0, _ => none
  | n + 1, s =>
    match Text.eat '"' s with
    | some rest => some ([], rest)
    | none => (character? s).bind fun p => (characters? n p.2).map fun q => (p.1 :: q.1, q.2)

def string? (s : Text) : Option (Text × Text) :=
  (Text.eat '"' s).bind fun rest => characters? rest.length rest

/-- What an item reader finds between commas up to the closing bracket, at most as many items as the
bound. -/
def separated? (item : Text → Option (α × Text)) (close : Char) :
    Nat → Text → Option (List α × Text)
  | 0, _ => none
  | n + 1, s =>
    (item (skipSpace s)).bind fun p =>
      match skipSpace p.2 with
      | [] => none
      | c :: rest =>
        if c = close then some ([p.1], rest)
        else if c = ',' then (separated? item close n rest).map fun q => (p.1 :: q.1, q.2)
        else none

def bracketed? (item : Text → Option (α × Text)) (close : Char) (s : Text) :
    Option (List α × Text) :=
  match Text.eat close (skipSpace s) with
  | some rest => some ([], rest)
  | none => separated? item close s.length s

def member? (read : Text → Option (Value × Text)) (s : Text) : Option ((Text × Value) × Text) :=
  (string? s).bind fun key => (Text.eat ':' (skipSpace key.2)).bind fun rest =>
    (read (skipSpace rest)).map fun p => ((key.1, p.1), p.2)

def words : List (Text × Value) :=
  [("null".toList, .null), ("true".toList, .boolean true), ("false".toList, .boolean false)]

def word? (s : Text) : Option (Value × Text) :=
  (words.find? fun p => p.1.isPrefixOf s).map fun p => (p.2, s.drop p.1.length)

/-- A value at the start of a text, nested no deeper than the bound. -/
def value? : Nat → Text → Option (Value × Text)
  | 0, _ => none
  | n + 1, s =>
    match s with
    | '"' :: _ => (string? s).map fun p => (.string p.1, p.2)
    | '[' :: rest => (bracketed? (value? n) ']' rest).map fun p => (.array p.1, p.2)
    | '\x7b' :: rest =>
      (bracketed? (member? (value? n)) '\x7d' rest).map fun p => (.object p.1, p.2)
    | s =>
      match word? s with
      | some p => some p
      | none => (number? s).map fun p => (.number (s.take (s.length - p.2.length)) p.1, p.2)

def decode? (t : Text) : Option Value :=
  (value? t.length (skipSpace t)).bind fun p => if skipSpace p.2 = [] then some p.1 else none

@[simp]
theorem skipSpace_run (hw : Space w) (hs : Stops isSpace s) : skipSpace (w ++ s) = s :=
  dropWhile_run hw hs

theorem minus_run (h : Minus sg negative) (hs : Stops (· == '-') s) :
    minus (sg ++ s) = (negative, s) := by
  cases h with
  | present => rfl
  | absent =>
    cases s with
    | nil => rfl
    | cons c s =>
      have hc := stops_cons.mp hs
      unfold minus
      split <;> simp_all

theorem fraction?_run (h : Fraction pt digits) (hs : Stops Char.isDigit s)
    (hdot : pt = [] → Stops (· == '.') s) : fraction? (pt ++ s) = some (digits, s) := by
  cases h with
  | present hne hd =>
    obtain ⟨hdigits, hafter⟩ := digits_run hd hs
    rw [List.cons_append, fraction?, hdigits, hafter, if_neg hne]
  | absent =>
    cases s with
    | nil => rfl
    | cons c s =>
      have hc := stops_cons.mp (hdot rfl)
      unfold fraction?
      split <;> simp_all

theorem Whole.head?_ne (h : Whole whole) :
    ¬(whole = [] ∨ (whole.head? = some '0' ∧ whole ≠ ['0'])) := by
  cases h with
  | zero => decide
  | digits hd =>
    have hne := (nonzero_digit_iff.mp hd).2
    simp [hne]

theorem number?_run (h : Number t q) (hr : Stops continues rest) :
    number? (t ++ rest) = some (q, rest) := by
  cases h with
  | @parts sg whole pt fraction ex negative e hsign hwhole hpoint hexponent =>
    -- No part goes on in what follows it: the next part, or what nothing continues.
    have hdigit : Stops Char.isDigit rest := hr.mono fun c hc => by simp [continues, hc]
    have hdot : Stops (· == '.') rest := hr.mono fun c hc => by simp [continues, hc]
    have hmark : Stops isExponentMark rest := hr.mono fun c hc => by simp [continues, hc]
    have hex : Stops Char.isDigit (ex ++ rest) := hexponent.stops_append rfl rfl fun _ => hdigit
    have hexdot : Stops (· == '.') (ex ++ rest) := hexponent.stops_append rfl rfl fun _ => hdot
    have hpt : Stops Char.isDigit (pt ++ (ex ++ rest)) := by
      cases hpoint with
      | absent => exact hex
      | present => exact stops_cons.mpr rfl
    have hsg : Stops (· == '-') (whole ++ (pt ++ (ex ++ rest))) := by
      obtain ⟨d, ds, rfl, hd, -⟩ := hwhole.exists_cons
      refine stops_cons.mpr (beq_eq_false_iff_ne.mpr ?_)
      rintro rfl
      cases hd
    obtain ⟨hdigits, hafter⟩ := digits_run hwhole.isDigits hpt
    simp only [List.append_assoc, number?, minus_run hsign hsg, hdigits, hafter,
      fraction?_run hpoint hex fun _ => hexdot]
    rw [if_neg hwhole.head?_ne, Option.bind_some,
      exponentPart_run hexponent hdigit fun _ => hmark, Option.map_some]

theorem code?_run (h : Code digits n) (rest : Text) : code? (digits ++ rest) = some (n, rest) := by
  cases h with
  | digits hlen hdigits =>
    have htake : (digits ++ rest).take 4 = digits := List.take_left' hlen
    have hdrop : (digits ++ rest).drop 4 = rest := List.drop_left' hlen
    have hall : digits.all (isDigitOf 16) = true :=
      List.all_eq_true.mpr fun c hc => isDigitOf_sixteen_iff.mpr (hdigits c hc)
    rw [code?, htake, hdrop, if_pos ⟨hlen, hall⟩, value_eq_ofDigits]

theorem lowHalf?_run (h : Code digits n) (hn : IsLowHalf n) (rest : Text) :
    lowHalf? ('\\' :: 'u' :: (digits ++ rest)) = some (n, rest) := by
  rw [lowHalf?, code?_run h, Option.filter_some, if_pos (decide_eq_true hn)]

theorem lookup_letters (h : (d, c) ∈ letters) : d ≠ 'u' ∧ letters.lookup d = some c := by
  simp only [letters, List.mem_cons, Prod.mk.injEq, List.not_mem_nil, or_false] at h
  rcases h with h | h | h | h | h | h | h | h <;> obtain ⟨rfl, rfl⟩ := h <;> decide

theorem character?_run (h : Character u c) (rest : Text) :
    character? (u ++ rest) = some (c, rest) := by
  cases h with
  | plain hc hq hb =>
    have hplain : ¬(c.toNat < 0x20 ∨ c = '"') := by
      rintro (h | h)
      · omega
      · exact hq h
    rw [List.singleton_append, character?, if_neg hb, if_neg hplain]
  | letter h =>
    obtain ⟨hu, hlookup⟩ := lookup_letters h
    simp only [List.cons_append, List.nil_append, character?, if_true, escaped?, if_neg hu, hlookup,
      Option.map_some]
  | code h hhigh hlow =>
    simp only [List.cons_append, character?, if_true, escaped?, code?_run h, Option.bind_some,
      if_neg hhigh, if_neg hlow]
  | halves hm hhigh hn hlow =>
    simp only [List.cons_append, List.append_assoc, character?, if_true, escaped?, code?_run hm,
      Option.bind_some, if_pos hhigh, lowHalf?_run hn hlow, Option.map_some]

theorem Character.exists_cons (h : Character u c) : ∃ d v, u = d :: v ∧ d ≠ '"' := by
  cases h with
  | plain hc hq hb => exact ⟨_, _, rfl, hq⟩
  | _ => exact ⟨_, _, rfl, by decide⟩

theorem Characters.length_le (h : Characters t s) : s.length ≤ t.length := by
  induction h with
  | nil => exact le_rfl
  | cons hc _ ih =>
    obtain ⟨d, v, rfl, -⟩ := hc.exists_cons
    simp only [List.length_cons, List.length_append]
    omega

theorem characters?_run (h : Characters t s) (hn : s.length < n) (rest : Text) :
    characters? n (t ++ '"' :: rest) = some (s, rest) := by
  induction h generalizing n with
  | nil =>
    obtain ⟨n, rfl⟩ := Nat.exists_eq_add_one_of_ne_zero (Nat.ne_of_gt hn)
    rfl
  | @cons u t s c hc h ih =>
    obtain ⟨n, rfl⟩ := Nat.exists_eq_add_one_of_ne_zero (Nat.ne_of_gt (Nat.zero_lt_of_lt hn))
    obtain ⟨d, v, hu, hd⟩ := hc.exists_cons
    have heat : Text.eat '"' (u ++ (t ++ '"' :: rest)) = none := by simp [hu, Text.eat, hd]
    rw [List.append_assoc, characters?, heat]
    dsimp only
    rw [character?_run hc, Option.bind_some, ih (Nat.lt_of_succ_lt_succ hn), Option.map_some]

theorem string?_run (h : Quoted t s) (rest : Text) : string? (t ++ rest) = some (s, rest) := by
  obtain ⟨body, hbody, rfl⟩ := h
  have hlen := hbody.length_le
  rw [List.cons_append, string?, Text.eat_eq_some_iff.mpr rfl, Option.bind_some, List.append_assoc,
    List.singleton_append]
  apply characters?_run hbody
  simp only [List.length_append, List.length_cons]
  omega

/-- A reader takes any text that nothing continues whole, and the text begins as values do. -/
def Takes (item : Text → Option (α × Text)) (t : Text) (a : α) : Prop :=
  (∃ c u, t = c :: u ∧ opens c = true) ∧
    ∀ rest, Stops continues rest → item (t ++ rest) = some (a, rest)

theorem opens_iff : opens c = true ↔ isSpace c = false ∧ c ≠ ']' ∧ c ≠ '\x7d' := by
  simp only [opens, Bool.and_eq_true, Bool.not_eq_true', bne_iff_ne, and_assoc]

theorem Takes.stops (h : Takes item t a) (rest : Text) : Stops isSpace (t ++ rest) := by
  obtain ⟨⟨c, u, rfl, hc⟩, -⟩ := h
  exact stops_cons.mpr (opens_iff.mp hc).1

theorem not_continues_of_isSpace (h : isSpace c = true) : continues c = false := by
  simp only [isSpace, Bool.or_eq_true, beq_iff_eq] at h
  rcases h with ((rfl | rfl) | rfl) | rfl <;> decide

theorem stops_space_append (hw : Space w) (hd : continues d = false) :
    Stops continues (w ++ d :: s) :=
  stops_run_append (fun c hc => not_continues_of_isSpace (hw c hc)) (stops_cons.mpr hd)

theorem Separated.length_le (h : Separated P t as) : as.length ≤ t.length + 1 := by
  induction h with
  | one => simp
  | more _ _ _ _ ih =>
    simp only [List.length_append, List.length_cons]
    omega

theorem separated?_step {t w₀ w₁ : Text} (h₀ : Space w₀) (h : Takes item t a) (h₁ : Space w₁)
    (hd : continues d = false) (hs : isSpace d = false) (n : Nat) :
    separated? item close (n + 1) (w₀ ++ (t ++ (w₁ ++ d :: rest))) =
      if d = close then some ([a], rest)
      else if d = ',' then (separated? item close n rest).map fun q => (a :: q.1, q.2)
      else none := by
  simp [separated?, h₀, h.stops, h.2 _ (stops_space_append h₁ hd), h₁, hs]

theorem separated?_run (h : Separated (Takes item) t as) (hclose : close = ']' ∨ close = '\x7d')
    (hn : as.length ≤ n) (rest : Text) :
    separated? item close n (t ++ close :: rest) = some (as, rest) := by
  have hc : continues close = false ∧ isSpace close = false ∧ ',' ≠ close := by
    rcases hclose with rfl | rfl <;> decide
  induction h generalizing n with
  | one h₀ h h₁ =>
    obtain ⟨n, rfl⟩ := Nat.exists_eq_add_one_of_ne_zero (Nat.ne_of_gt hn)
    simp only [List.append_assoc]
    rw [separated?_step h₀ h h₁ hc.1 hc.2.1, if_pos rfl]
  | more h₀ h h₁ _ ih =>
    obtain ⟨n, rfl⟩ := Nat.exists_eq_add_one_of_ne_zero (Nat.ne_of_gt (Nat.zero_lt_of_lt hn))
    simp only [List.append_assoc, List.cons_append]
    rw [separated?_step h₀ h h₁ (by decide) (by decide), if_neg hc.2.2, if_pos rfl,
      ih (Nat.le_of_succ_le_succ hn), Option.map_some]

theorem Separated.exists_cons (h : Separated (Takes item) t as) :
    ∃ w c u, Space w ∧ t = w ++ c :: u ∧ opens c = true := by
  cases h with
  | one h₀ h _ =>
    obtain ⟨⟨c, u, rfl, hc⟩, -⟩ := h
    exact ⟨_, c, _, h₀, rfl, hc⟩
  | more h₀ h _ _ =>
    obtain ⟨⟨c, u, rfl, hc⟩, -⟩ := h
    exact ⟨_, c, _, h₀, rfl, hc⟩

theorem bracketed?_run (h : Separated (Takes item) t as) (hclose : close = ']' ∨ close = '\x7d')
    (rest : Text) : bracketed? item close (t ++ close :: rest) = some (as, rest) := by
  obtain ⟨w, c, u, hw, ht, hc⟩ := h.exists_cons
  obtain ⟨hspace, hbracket, hbrace⟩ := opens_iff.mp hc
  -- The first item does not begin with the closing bracket.
  have heat : Text.eat close (skipSpace (t ++ close :: rest)) = none := by
    have hne : c ≠ close := by rcases hclose with rfl | rfl <;> assumption
    simp [ht, hw, hspace, Text.eat, hne]
  have hlen : as.length ≤ (t ++ close :: rest).length := by
    have hlen := h.length_le
    simp only [List.length_append, List.length_cons]
    omega
  rw [bracketed?, heat]
  exact separated?_run h hclose hlen rest

theorem bracketed?_space (hw : Space w) (hclose : close = ']' ∨ close = '\x7d') (rest : Text) :
    bracketed? item close (w ++ close :: rest) = some ([], rest) := by
  have hc : isSpace close = false := by rcases hclose with rfl | rfl <;> decide
  simp [bracketed?, hw, hc]

theorem takes_member {read : Text → Option (Value × Text)} {m : Text × Value}
    (h : Member (Takes read) t m) : Takes (member? read) t m := by
  refine ⟨h.exists_cons, fun rest hr => ?_⟩
  cases h with
  | pair hkey h₀ h₁ h =>
    have hcolon : isSpace ':' = false := by decide
    simp [member?, string?_run hkey, h₀, hcolon, h₁, h.stops, h.2 rest hr]

theorem word?_eq_none (hc : c = '-' ∨ c.isDigit = true) (rest : Text) :
    word? (c :: rest) = none := by
  have hne : 'n' ≠ c ∧ 't' ≠ c ∧ 'f' ≠ c := by
    refine ⟨?_, ?_, ?_⟩ <;> rintro rfl <;> rcases hc with hc | hc <;> cases hc
  simp [word?, words, hne]

theorem value?_numeral (hc : c = '-' ∨ c.isDigit = true) (rest : Text) (n : Nat) :
    value? (n + 1) (c :: rest) = (number? (c :: rest)).map fun p =>
      (.number ((c :: rest).take ((c :: rest).length - p.2.length)) p.1, p.2) := by
  have hne : c ≠ '"' ∧ c ≠ '[' ∧ c ≠ '\x7b' := by
    refine ⟨?_, ?_, ?_⟩ <;> rintro rfl <;> rcases hc with hc | hc <;> cases hc
  unfold value?
  split
  · rename_i heq
    exact absurd (List.cons.inj heq).1 hne.1
  · rename_i heq
    exact absurd (List.cons.inj heq).1 hne.2.1
  · rename_i heq
    exact absurd (List.cons.inj heq).1 hne.2.2
  · rw [word?_eq_none hc]

/-- A bound that the text does not exceed is enough. -/
theorem takes_value (h : Derives t v) (hn : t.length ≤ n) : Takes (value? n) t v := by
  refine ⟨h.exists_cons, fun rest hr => ?_⟩
  -- By induction on the bound: what brackets hold is shorter, so a bound less by one is enough.
  induction n generalizing t v rest with
  | zero =>
    obtain ⟨c, u, rfl, -⟩ := h.exists_cons
    simp at hn
  | succ n ih =>
    have hitem {u : Text} (hu : u.length + 2 ≤ n + 1) (a : Text) (b : Value)
        (ha : a.length ≤ u.length) (hb : Derives a b) : Takes (value? n) a b :=
      ⟨hb.exists_cons, fun rest hr => ih hb (by omega) rest hr⟩
    cases h with
    | null => rfl
    | yes => rfl
    | no => rfl
    | @number t q h =>
      obtain ⟨c, u, hu, hc⟩ := h.exists_cons
      have hread := number?_run h hr
      have htake : (t ++ rest).take ((t ++ rest).length - rest.length) = t := by
        rw [List.length_append, Nat.add_sub_cancel]
        exact List.take_left' rfl
      rw [hu, List.cons_append] at hread htake ⊢
      rw [value?_numeral hc, hread, Option.map_some, htake]
    | string h =>
      obtain ⟨u, hu⟩ := h.exists_cons
      have hread := string?_run h rest
      rw [hu, List.cons_append] at hread ⊢
      rw [value?, hread]
      rfl
    | emptyArray hw =>
      rw [List.cons_append, List.append_assoc, List.singleton_append, value?,
        bracketed?_space hw (.inl rfl)]
      rfl
    | array h =>
      simp only [List.length_cons, List.length_append, List.length_nil] at hn
      rw [List.cons_append, List.append_assoc, List.singleton_append, value?,
        bracketed?_run (h.imp (hitem hn)) (.inl rfl)]
      rfl
    | emptyObject hw =>
      rw [List.cons_append, List.append_assoc, List.singleton_append, value?,
        bracketed?_space hw (.inr rfl)]
      rfl
    | object h =>
      simp only [List.length_cons, List.length_append, List.length_nil] at hn
      have hmembers := h.imp (Q := Takes (member? (value? n))) fun a b ha hb => takes_member (by
        cases hb with
        | pair hkey h₀ h₁ h =>
          refine .pair hkey h₀ h₁ (hitem hn _ _ ?_ h)
          simp only [List.length_append, List.length_cons] at ha
          omega)
      rw [List.cons_append, List.append_assoc, List.singleton_append, value?,
        bracketed?_run hmembers (.inr rfl)]
      rfl

theorem decode?_of_denotes (h : Denotes t v) : decode? t = some v := by
  obtain ⟨w₀, u, w₁, h₀, hu, h₁, rfl⟩ := h
  have hlen : u.length ≤ (w₀ ++ (u ++ w₁)).length := by
    simp only [List.length_append]
    omega
  have htakes := takes_value hu hlen
  have hstop : Stops continues w₁ := by
    simpa using stops_run_append (fun c hc => not_continues_of_isSpace (h₁ c hc)) stops_nil
  have hend : skipSpace w₁ = [] := by simpa using skipSpace_run h₁ stops_nil
  rw [decode?, skipSpace_run h₀ (htakes.stops w₁), htakes.2 w₁ hstop, Option.bind_some,
    if_pos hend]

end MaterialText.Json
