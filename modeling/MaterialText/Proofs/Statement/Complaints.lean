import MaterialText.Proofs.Statement.Constant

namespace MaterialText

variable {α β : Type} {line s t w name word : Text} {f : Failure} {type : FloatType}

def Word.Starts (word s : Text) : Prop := ∃ rest, s = word ++ rest ∧ Run isWordChar word rest

/-- What a cause says of the text that it points at. A line that was no attempt at a statement is
pointed at nowhere. -/
def Cause.Describes : Cause → Text → Prop
  | .unrecognized, _ => False
  | .unknownDirective found, s =>
    Word.Starts found s ∧ found ∉ ["define".toList, "include".toList]
  | .expectedName, s => Stops isWordChar s
  | .unterminatedString, s => s.head? = some '"' ∧ Quoted.scan s = none
  | .expectedInteger, s => s.head? ≠ some '"' ∧ Integer.scan s = none
  | .expectedFloat, s => FloatLiteral.read s = none
  | .unknownType found, s => Word.Starts found s ∧ ∀ n, (found, n) ∉ Statement.typeNames
  | .constructorMismatch declared found, s =>
    Word.Starts found s ∧ "float".toList <+: found ∧ found ≠ declared ∧
      ∃ n, (declared, n) ∈ Statement.typeNames
  | .componentCount declared needed found, s =>
    Word.Starts declared s ∧ (declared, needed) ∈ Statement.typeNames ∧ found ≠ needed ∧
      ∃ w t values rest, Blanks w ∧ Statement.Components t values ∧ values.length = found ∧
        s = declared ++ (w ++ '(' :: (t ++ ')' :: rest))
  | .expectedChar c, s => s.head? ≠ some c
  | .trailingText, s => s ≠ []

/-- A failure is about a part of a text that begins with no blank and is what the cause says. -/
structure Failure.PointsInto (f : Failure) (s : Text) : Prop where
  suffix : f.rest <:+ s
  stops : Stops isBlank f.rest
  describes : f.cause.Describes f.rest

theorem Failure.PointsInto.mono (h : f.PointsInto s) (hs : s <:+ t) : f.PointsInto t :=
  ⟨h.suffix.trans hs, h.stops, h.describes⟩

theorem Failure.PointsInto.inLine (h : f.PointsInto line) : (f.inLine line).column ≤ line.length ∧
    line.drop (f.inLine line).column = f.rest :=
  ⟨Nat.sub_le _ _, (List.suffix_iff_eq_drop.mp h.suffix).symm⟩

theorem Word.starts_scan (hs : Stops isBlank s) : Word.Starts (Word.scan s).1 s := by
  refine ⟨(Word.scan s).2, ?_, fun c hc => Word.isWordChar_of_mem_scan hc, Word.stops_scan s⟩
  rw [Word.scan_append, skipBlanks_stops hs]

theorem Word.starts_skipBlanks_iff : Word.Starts word (skipBlanks s) ↔ (Word.scan s).1 = word := by
  refine ⟨fun h => ?_, fun h => ?_⟩
  · obtain ⟨rest, hs, hrun⟩ := h
    rw [Word.scan, hs, takeWhile_run hrun.1 hrun.2]
  · rw [← h, ← Word.scan_skipBlanks]
    exact Word.starts_scan (stops_skipBlanks s)

theorem FloatLiteral.read_skipBlanks (s : Text) : read (skipBlanks s) = read s := by
  rw [read, read, skipBlanks_skipBlanks]

namespace Statement

/-- A reader of `s` leaves a part of it, and fails at a part of it. -/
structure Tracks (left : α → Text) (s : Text) (x : Except Failure α) : Prop where
  leaves : ∀ a, x = .ok a → left a <:+ s
  points : ∀ f, x = .error f → f.PointsInto s

variable {left : α → Text} {left' : β → Text} {x : Except Failure α} {g : α → Except Failure β}

theorem tracks_ok {a : α} (h : left a <:+ s) : Tracks left s (.ok a) := by
  refine ⟨fun b hb => ?_, fun f hf => by cases hf⟩
  obtain rfl := Except.ok.inj hb
  exact h

theorem tracks_error (h : f.PointsInto s) : Tracks left s (.error f) := by
  refine ⟨fun a ha => (by cases ha), fun f' hf => ?_⟩
  obtain rfl := Except.error.inj hf
  exact h

theorem Tracks.mono (h : Tracks left s x) (hs : s <:+ t) : Tracks left t x :=
  ⟨fun a ha => (h.leaves a ha).trans hs, fun f hf => (h.points f hf).mono hs⟩

theorem Tracks.map {k : α → β} (h : Tracks left s x) (hk : ∀ a, left' (k a) = left a) :
    Tracks left' s (x.map k) := by
  cases x with
  | error f => exact tracks_error (h.points f rfl)
  | ok a =>
    refine tracks_ok ?_
    rw [hk]
    exact h.leaves a rfl

/-- The reader that goes on is known to start at a part of the text. -/
theorem Tracks.bind (h : Tracks left s x)
    (hg : ∀ a, x = .ok a → left a <:+ s → Tracks left' s (g a)) : Tracks left' s (x >>= g) := by
  cases x with
  | error f => exact tracks_error (h.points f rfl)
  | ok a => exact hg a rfl (h.leaves a rfl)

theorem tracks_readName (s : Text) : Tracks Prod.snd s (readName s) := by
  simp only [readName]
  split
  · rename_i hnil
    have hrest := Word.scan_append s
    rw [hnil, List.nil_append] at hrest
    refine tracks_error ⟨Word.scan_suffix s, ?_, Word.stops_scan s⟩
    rw [hrest]
    exact stops_skipBlanks s
  · exact tracks_ok (Word.scan_suffix s)

theorem tracks_readChar (c : Char) (s : Text) : Tracks id s (readChar c s) := by
  unfold readChar
  split
  · rename_i rest heat
    have hsuffix := skipBlanks_suffix s
    rw [Text.eat_eq_some_iff.mp heat] at hsuffix
    exact tracks_ok ((List.suffix_cons c rest).trans hsuffix)
  · rename_i heat
    refine tracks_error ⟨skipBlanks_suffix s, stops_skipBlanks s, fun hhead => ?_⟩
    obtain ⟨rest, hrest⟩ := List.head?_eq_some_iff.mp hhead
    rw [Text.eat_eq_some_iff.mpr hrest] at heat
    cases heat

theorem pointsInto_expectedFloat (h : FloatLiteral.read s = none) :
    (⟨.expectedFloat, skipBlanks s⟩ : Failure).PointsInto s :=
  ⟨skipBlanks_suffix s, stops_skipBlanks s, (FloatLiteral.read_skipBlanks s).trans h⟩

theorem tracks_readFloat (s : Text) : Tracks Prod.snd s (readFloat s) := by
  unfold readFloat
  split
  · rename_i p hread
    exact tracks_ok (FloatLiteral.read_suffix hread)
  · rename_i hread
    exact tracks_error (pointsInto_expectedFloat hread)

theorem tracks_readQuoted (hs : Stops isBlank s) (hquote : s.head? = some '"') :
    Tracks Prod.snd s (readQuoted s) := by
  unfold readQuoted
  split
  · rename_i p hscan
    exact tracks_ok (Quoted.scan_suffix hscan)
  · rename_i hscan
    exact tracks_error ⟨List.suffix_refl s, hs, hquote, hscan⟩

theorem tracks_readInteger (hs : Stops isBlank s) (hquote : s.head? ≠ some '"') :
    Tracks Prod.snd s (readInteger s) := by
  unfold readInteger
  split
  · rename_i p hscan
    exact tracks_ok (Integer.scan_suffix hscan)
  · rename_i hscan
    exact tracks_error ⟨List.suffix_refl s, hs, hquote, hscan⟩

theorem tracks_readDefined (name : Text) (hs : Stops isBlank s) :
    Tracks Prod.snd s (readDefined name s) := by
  unfold readDefined
  split
  · rename_i hquote
    exact (tracks_readQuoted hs hquote).map fun _ => rfl
  · rename_i hquote
    exact (tracks_readInteger hs hquote).map fun _ => rfl

theorem tracks_readDirective (hs : Stops isBlank s) : Tracks Prod.snd s (readDirective s) := by
  simp only [readDirective]
  split
  · refine ((tracks_readName _).mono (Word.scan_suffix s)).bind fun name _ hname => ?_
    exact (tracks_readDefined name.1 (stops_skipBlanks _)).mono
      ((skipBlanks_suffix name.2).trans hname)
  · rename_i hdefine
    split
    · exact tracks_ok List.nil_suffix
    · rename_i hinclude
      refine tracks_error ⟨List.suffix_refl s, hs, Word.starts_scan hs, ?_⟩
      simp only [List.mem_cons, List.not_mem_nil, or_false, not_or]
      exact ⟨hdefine, hinclude⟩

theorem tracks_readComponents (s : Text) : Tracks Prod.snd s (readComponents s) := by
  fun_induction readComponents s with
  | case1 s hread => exact tracks_error (pointsInto_expectedFloat hread)
  | case2 s x rest hread after hrest =>
    have hsuffix := skipBlanks_suffix rest
    rw [hrest] at hsuffix
    exact tracks_ok (((List.suffix_cons _ _).trans hsuffix).trans (FloatLiteral.read_suffix hread))
  | case3 s x rest hread after hrest ih =>
    have hsuffix := skipBlanks_suffix rest
    rw [hrest] at hsuffix
    have hmap : Tracks Prod.snd after ((readComponents after).map fun p => (x :: p.1, p.2)) :=
      ih.map fun _ => rfl
    exact hmap.mono (((List.suffix_cons _ _).trans hsuffix).trans (FloatLiteral.read_suffix hread))
  | case4 s x rest hread hparen hcomma =>
    refine tracks_error ⟨(skipBlanks_suffix rest).trans (FloatLiteral.read_suffix hread),
      stops_skipBlanks rest, fun hhead => ?_⟩
    obtain ⟨u, hu⟩ := List.head?_eq_some_iff.mp hhead
    exact hcomma u hu

theorem prefix_takeWhile {p : Char → Bool} (h : ∀ c ∈ w, p c = true) (hw : w <+: s) :
    w <+: s.takeWhile p := by
  obtain ⟨t, rfl⟩ := hw
  rw [List.takeWhile_append_of_pos h]
  exact List.prefix_append w _

theorem exists_of_mem_typeNames {n : Nat} (h : (t, n) ∈ typeNames) :
    ∃ type : FloatType, t = type.name := by
  have hall : typeNames = FloatType.all.map fun a => (a.name, a.dimension) := rfl
  rw [hall] at h
  obtain ⟨type, -, htype⟩ := List.mem_map.mp h
  exact ⟨type, (Prod.mk.inj htype).1.symm⟩

theorem mem_typeNames (type : FloatType) : (type.name, type.dimension) ∈ typeNames :=
  mem_typeNames_iff.mpr rfl

theorem tracks_readVector (name : Text) (type : FloatType) (hs : Stops isBlank s)
    (hfloat : "float".toList <+: s) : Tracks Prod.snd s (readVector name type s) := by
  have hsplit : s = (Word.scan s).1 ++ (Word.scan s).2 := by
    rw [Word.scan_append, skipBlanks_stops hs]
  simp only [readVector]
  split
  · rename_i hword
    refine ((tracks_readChar '(' _).mono (Word.scan_suffix s)).bind fun after hchar hafter => ?_
    refine ((tracks_readComponents after).mono hafter).bind fun components hread hrest => ?_
    split
    · exact tracks_ok hrest
    -- Components are counted after the closing parenthesis, but the constructor is pointed at.
    · rename_i hlen
      obtain ⟨w, hw, hparen⟩ := (readChar_eq_ok_iff (by decide)).mp hchar
      obtain ⟨t, ht, hafter'⟩ := exists_of_readComponents hread
      rw [hparen, hafter', hword] at hsplit
      have hstarts := Word.starts_scan hs
      rw [hword] at hstarts
      exact tracks_error ⟨List.suffix_refl s, hs, hstarts, mem_typeNames type, hlen, w, t, _, _, hw,
        ht, rfl, hsplit⟩
  · rename_i hword
    refine tracks_error ⟨List.suffix_refl s, hs, Word.starts_scan hs, ?_, hword, _,
      mem_typeNames type⟩
    have hstart : "float".toList <+: s.takeWhile isWordChar :=
      prefix_takeWhile (isWord_typeName .float).2 hfloat
    rwa [← skipBlanks_stops hs] at hstart

theorem tracks_readValue (name : Text) (type : FloatType) (hs : Stops isBlank s) :
    Tracks Prod.snd s (readValue name type s) := by
  unfold readValue
  split
  · rename_i hfloat
    exact tracks_readVector name type hs (List.isPrefixOf_iff_prefix.mp hfloat)
  · exact (tracks_readFloat s).map fun _ => rfl

theorem tracks_readConstant (s : Text) : Tracks Prod.snd s (readConstant s) := by
  simp only [readConstant]
  split
  · rename_i hnone
    have hstarts := Word.starts_scan (stops_skipBlanks s)
    rw [Word.scan_skipBlanks] at hstarts
    refine tracks_error ⟨skipBlanks_suffix s, stops_skipBlanks s, hstarts, fun n hn => ?_⟩
    obtain ⟨type, htype⟩ := exists_of_mem_typeNames hn
    rw [FloatType.ofName?_eq_some_iff.mpr htype] at hnone
    cases hnone
  · rename_i type htype
    refine ((tracks_readName _).mono (Word.scan_suffix s)).bind fun name _ hname => ?_
    refine ((tracks_readChar '=' _).mono hname).bind fun equals _ hequals => ?_
    have hvalue := tracks_readValue name.1 type (stops_skipBlanks equals)
    refine (hvalue.mono ((skipBlanks_suffix equals).trans hequals)).bind fun value _ hrest => ?_
    refine ((tracks_readChar ';' _).mono hrest).bind fun rest _ hend => ?_
    exact tracks_ok hend

/-- A line that starts as a directive or as a declaration. -/
def Attempts (line : Text) : Prop :=
  (skipBlanks line).head? = some '#' ∨ Word.Starts "const".toList (skipBlanks line)

theorem tracks_readStart (h : Attempts line) : Tracks Prod.snd line (readStart line) := by
  have hsuffix := skipBlanks_suffix line
  cases heat : Text.eat '#' (skipBlanks line) with
  | some t =>
    rw [Text.eat_eq_some_iff.mp heat] at hsuffix
    rw [readStart_of_eat heat]
    exact (tracks_readDirective (stops_skipBlanks t)).mono
      (((skipBlanks_suffix t).trans (List.suffix_cons '#' t)).trans hsuffix)
  | none =>
    obtain hhead | hword := h
    · obtain ⟨t, ht⟩ := List.head?_eq_some_iff.mp hhead
      rw [Text.eat_eq_some_iff.mpr ht] at heat
      cases heat
    · rw [readStart_of_not_eat heat, if_pos (Word.starts_skipBlanks_iff.mp hword)]
      exact (tracks_readConstant _).mono (Word.scan_suffix line)

theorem tracks_readWhole (h : Attempts line) : Tracks (fun _ => []) line (readWhole line) := by
  refine (tracks_readStart h).bind fun p _ hrest => ?_
  split
  · exact tracks_ok List.nil_suffix
  · rename_i hne
    exact tracks_error ⟨(skipBlanks_suffix p.2).trans hrest, stops_skipBlanks p.2, hne⟩

theorem readWhole_of_not_attempts (h : ¬Attempts line) :
    readWhole line = .error ⟨.unrecognized, line⟩ := by
  obtain ⟨hhead, hword⟩ := not_or.mp h
  have heat : Text.eat '#' (skipBlanks line) = none := by
    cases heat : Text.eat '#' (skipBlanks line) with
    | none => rfl
    | some t => exact absurd (by rw [Text.eat_eq_some_iff.mp heat]; rfl) hhead
  rw [Word.starts_skipBlanks_iff] at hword
  rw [readWhole, readStart_of_not_eat heat, if_neg hword]
  rfl

theorem parse_eq_error_iff {e : Diagnostic} :
    parse line = .error e ↔ ∃ f, readWhole line = .error f ∧ e = f.inLine line := by
  rw [parse]
  cases readWhole line with
  | ok st => simp [Except.mapError]
  | error f => simp [Except.mapError, eq_comm]

/-- A diagnostic of a line that was an attempt at a statement points into the line, past any blanks, at
what it complains of. -/
theorem parse_error_describes {e : Diagnostic} (h : parse line = .error e)
    (hcause : e.cause ≠ .unrecognized) : e.column ≤ line.length ∧
      Stops isBlank (line.drop e.column) ∧ e.cause.Describes (line.drop e.column) := by
  obtain ⟨f, hf, rfl⟩ := parse_eq_error_iff.mp h
  by_cases hattempt : Attempts line
  · have hpoints := (tracks_readWhole hattempt).points f hf
    obtain ⟨hcolumn, hrest⟩ := hpoints.inLine
    rw [hrest]
    exact ⟨hcolumn, hpoints.stops, hpoints.describes⟩
  · rw [readWhole_of_not_attempts hattempt] at hf
    obtain rfl := Except.error.inj hf
    exact absurd rfl hcause

theorem parse_error_describes_padded :
    parse "\u3000const\u00a0float2 v =\u2003float3(1, 2);".toList =
        .error ⟨.constructorMismatch "float2".toList "float3".toList, 18⟩ ∧
      Cause.constructorMismatch "float2".toList "float3".toList ≠ .unrecognized ∧
      18 ≤ "\u3000const\u00a0float2 v =\u2003float3(1, 2);".toList.length ∧
        Stops isBlank "float3(1, 2);".toList ∧
        (Cause.constructorMismatch "float2".toList "float3".toList).Describes
          "float3(1, 2);".toList := by
  have hparse : parse "\u3000const\u00a0float2 v =\u2003float3(1, 2);".toList =
      .error ⟨.constructorMismatch "float2".toList "float3".toList, 18⟩ := by decide
  have hcause : Cause.constructorMismatch "float2".toList "float3".toList ≠ .unrecognized := by decide
  have hdrop : "\u3000const\u00a0float2 v =\u2003float3(1, 2);".toList.drop 18 =
      "float3(1, 2);".toList := by decide
  obtain ⟨hcolumn, hstops, hdescribes⟩ := parse_error_describes hparse hcause
  dsimp only at hcolumn hstops hdescribes
  rw [hdrop] at hstops hdescribes
  exact ⟨hparse, hcause, hcolumn, hstops, hdescribes⟩

end Statement
end MaterialText
