import MaterialText.Proofs.Document.Records
import MaterialText.Proofs.Document.RoundTrip
import MaterialText.Proofs.Statement.Complaints

namespace MaterialText

variable {α : Type} {f : Text → Option α} {ls : List Text} {s line t : Text} {n : Nat}

/-- What a function finds on lines, each with the number of its line. -/
def numbered (f : Text → Option α) (ls : List Text) : List (Nat × α) :=
  ls.zipIdx.filterMap fun p => (f p.1).map (p.2, ·)

theorem mem_numbered_iff {a : α} :
    (n, a) ∈ numbered f ls ↔ ∃ line, ls[n]? = some line ∧ f line = some a := by
  simp only [numbered, List.mem_filterMap, List.mem_zipIdx_iff_getElem?, Option.map_eq_some_iff]
  constructor
  · rintro ⟨⟨line, i⟩, hline, b, hb, hp⟩
    cases hp
    exact ⟨line, hline, hb⟩
  · rintro ⟨line, hline, ha⟩
    exact ⟨(line, n), hline, a, ha, rfl⟩

theorem pairwise_numbered (f : Text → Option α) (ls : List Text) :
    (numbered f ls).Pairwise fun a b => a.1 < b.1 := by
  have hlines : ls.zipIdx.Pairwise fun p q => p.2 < q.2 := by
    rw [← List.pairwise_map, List.zipIdx_map_snd]
    exact List.pairwise_lt_range'
  refine hlines.filterMap _ fun p q hpq a ha b hb => ?_
  obtain ⟨_, -, rfl⟩ := Option.map_eq_some_iff.mp ha
  obtain ⟨_, -, rfl⟩ := Option.map_eq_some_iff.mp hb
  exact hpq

theorem map_snd_numbered (f : Text → Option α) (ls : List Text) :
    (numbered f ls).map Prod.snd = ls.filterMap f := by
  have hsnd : (fun p : Text × Nat => ((f p.1).map (p.2, ·)).map Prod.snd) = f ∘ Prod.fst := by
    funext p
    rw [Option.map_map]
    exact Option.map_id'
  rw [numbered, List.map_filterMap, hsnd, ← List.filterMap_map, List.zipIdx_map_fst]

theorem map_notesOn (s : Text) :
    (notesOn s).map (fun n => (n.line, n.diagnostic)) = numbered Statement.diagnostic? (lines s) := by
  rw [notesOn, List.map_filterMap]
  simp only [Option.map_map]
  rfl

namespace Statement

def isIgnored (line : Text) : Bool :=
  match parse line with
  | .ok _ => false
  | .error e => e.isUnrecognized

/-- Only what neither starts as a directive nor as a declaration is unrecognized, and then as a whole. -/
theorem parse_eq_error_cases {e : Diagnostic} (h : parse line = .error e) :
    (Attempts line ∧ e.isUnrecognized = false) ∨ (¬Attempts line ∧ e = ⟨.unrecognized, 0⟩) := by
  by_cases hattempt : Attempts line
  · refine .inl ⟨hattempt, ?_⟩
    obtain ⟨f, hf, rfl⟩ := parse_eq_error_iff.mp h
    have hdescribes := ((tracks_readWhole hattempt).points f hf).describes
    refine beq_eq_false_iff_ne.mpr fun hcause => ?_
    rw [show f.cause = .unrecognized from hcause] at hdescribes
    exact hdescribes
  · refine .inr ⟨hattempt, ?_⟩
    obtain ⟨f, hf, rfl⟩ := parse_eq_error_iff.mp h
    rw [readWhole_of_not_attempts hattempt] at hf
    obtain rfl := Except.error.inj hf
    simp only [Failure.inLine, Nat.sub_self]

theorem isVerbatim_of_parse {st : Statement} (h : parse line = .ok st) : st.isVerbatim = false := by
  cases st with
  | verbatim t => exact absurd h parse_ne_verbatim
  | _ => rfl

theorem isVerbatim_ofLine_of_error {e : Diagnostic} (h : parse line = .error e) :
    (ofLine line).isVerbatim = true := by
  rw [ofLine_of_error h, isVerbatim]

/-- A line of each of the three kinds: recognised, with a diagnostic, and ignored. -/
inductive Kind (line : Text) : Prop
  | recognized {st : Statement} (h : parse line = .ok st) (hst : st.isVerbatim = false)
  | noted {e : Diagnostic} (h : parse line = .error e) (he : e.isUnrecognized = false)
      (hattempt : Attempts line)
  | ignored (h : parse line = .error ⟨.unrecognized, 0⟩) (hattempt : ¬Attempts line)

theorem kind (line : Text) : Kind line := by
  cases h : parse line with
  | ok st => exact .recognized h (isVerbatim_of_parse h)
  | error e =>
    obtain ⟨hattempt, he⟩ | ⟨hattempt, rfl⟩ := parse_eq_error_cases h
    · exact .noted h he hattempt
    · exact .ignored h hattempt

theorem diagnostic?_of_error {e : Diagnostic} (h : parse line = .error e)
    (he : e.isUnrecognized = false) : diagnostic? line = some e := by
  rw [diagnostic?, h]
  exact if_neg (by simp [he])

theorem diagnostic?_of_unrecognized (h : parse line = .error ⟨.unrecognized, 0⟩) :
    diagnostic? line = none := by
  rw [diagnostic?, h]
  rfl

theorem isSome_diagnostic?_iff : (diagnostic? line).isSome = true ↔
    (ofLine line).isVerbatim = true ∧ Attempts line := by
  cases kind line with
  | recognized h hst => simp [diagnostic?_of_ok h, ofLine_of_ok h, hst]
  | noted h he hattempt =>
    simp [diagnostic?_of_error h he, isVerbatim_ofLine_of_error h, hattempt]
  | ignored h hattempt => simp [diagnostic?_of_unrecognized h, hattempt]

theorem parse_of_not_attempts (hline : (ofLine line).isVerbatim = true) (h : ¬Attempts line) :
    parse line = .error ⟨.unrecognized, 0⟩ := by
  cases kind line with
  | recognized hparse hst =>
    rw [ofLine_of_ok hparse, hst] at hline
    cases hline
  | noted _ _ hattempt => exact absurd hattempt h
  | ignored hparse _ => exact hparse

theorem parse_eq_ok_iff_ofLine {st : Statement} :
    parse line = .ok st ↔ ofLine line = st ∧ st.isVerbatim = false := by
  constructor
  · intro h
    exact ⟨ofLine_of_ok h, isVerbatim_of_parse h⟩
  · rintro ⟨rfl, hst⟩
    cases h : parse line with
    | ok st => rw [ofLine_of_ok h]
    | error e =>
      rw [isVerbatim_ofLine_of_error h] at hst
      cases hst

/-- Every line is of one of the three kinds. -/
theorem countP_kinds (ls : List Text) :
    ls.countP (fun line => !(ofLine line).isVerbatim) + ls.countP (fun line => (diagnostic? line).isSome) +
      ls.countP isIgnored = ls.length := by
  induction ls with
  | nil => rfl
  | cons line ls ih =>
    simp only [List.countP_cons, List.length_cons]
    -- Every line adds one to exactly one of the three counts.
    cases kind line with
    | recognized h hst =>
      have hverbatim : (ofLine line).isVerbatim = false := by rw [ofLine_of_ok h, hst]
      have hignored : isIgnored line = false := by rw [isIgnored, h]
      simp [hverbatim, diagnostic?_of_ok h, hignored]
      omega
    | noted h he =>
      have hignored : isIgnored line = false := by
        rw [isIgnored, h]
        exact he
      simp [isVerbatim_ofLine_of_error h, diagnostic?_of_error h he, hignored]
      omega
    | ignored h =>
      have hignored : isIgnored line = true := by
        rw [isIgnored, h]
        rfl
      simp [isVerbatim_ofLine_of_error h, diagnostic?_of_unrecognized h, hignored]
      omega

end Statement

open Statement

namespace Log

theorem report?_eq_some_iff {r : Report} : report? line = some r ↔
    (∃ e, diagnostic? line = some e ∧ r = .kept e line) ∨
      ∃ st, Statement.parse line = .ok st ∧ r = .recognized st := by
  cases h : Statement.parse line with
  | ok st => simp [report?, diagnostic?, h, eq_comm]
  | error e =>
    by_cases he : e.isUnrecognized = true
    · simp [report?, diagnostic?, h, he]
    · simp [report?, diagnostic?, h, he, eq_comm]

def record? (line : Text) : Option Entry := (report? line).map Report.entry

theorem ofText_eq_filterMap (s : Text) : ofText s = (lines s).filterMap record? := by
  rw [ofText, List.map_filterMap]
  rfl

theorem record?_eq_some_iff {entry : Entry} : record? line = some entry ↔
    (∃ e quoted, diagnostic? line = some e ∧ Quotation line quoted ∧
      entry = ⟨.debug, "kept verbatim (".toList ++ Numeral.decimal e.column ++ ": ".toList ++
        e.cause.message ++ "): ".toList ++ quoted⟩) ∨
      ∃ st told, Statement.parse line = .ok st ∧ Tells st told ∧ entry = ⟨.trace, told⟩ := by
  have hkept (e : Diagnostic) : (Report.kept e line).entry = ⟨.debug, "kept verbatim (".toList ++
      Numeral.decimal e.column ++ ": ".toList ++ e.cause.message ++ "): ".toList ++
        showText line⟩ := by
    simp only [Report.entry, Diagnostic.text, List.append_assoc]
  simp only [record?, Option.map_eq_some_iff, report?_eq_some_iff]
  constructor
  · rintro ⟨r, ⟨e, he, rfl⟩ | ⟨st, hst, rfl⟩, rfl⟩
    · exact .inl ⟨e, _, he, quotation_iff.mpr rfl, hkept e⟩
    · have hverbatim := (parse_eq_ok_iff_ofLine.mp hst).2
      exact .inr ⟨st, _, hst, tells_iff.mpr ⟨hverbatim, rfl⟩, rfl⟩
  · rintro (⟨e, quoted, he, hquoted, rfl⟩ | ⟨st, told, hst, htold, rfl⟩)
    · rw [quotation_iff.mp hquoted]
      exact ⟨_, .inl ⟨e, he, rfl⟩, hkept e⟩
    · rw [(tells_iff.mp htold).2]
      exact ⟨_, .inr ⟨st, hst, rfl⟩, rfl⟩

end Log

namespace Document

theorem line_parse_eq_ok_iff {st : Statement} : (parse s).line n = .ok st ↔
    ∃ line, (lines s)[n]? = some line ∧ ofLine line = st := by
  simp only [Document.line, parse, List.getElem?_map]
  cases (lines s)[n]? <;> simp

theorem length_notesOn (s : Text) :
    (notesOn s).length = (lines s).countP fun line => (diagnostic? line).isSome := by
  have h := congrArg List.length (map_snd_numbered diagnostic? (lines s))
  rwa [← map_notesOn, List.length_map, List.length_map, List.length_filterMap_eq_countP] at h

theorem recognized_parse (s : Text) :
    (parse s).recognized = (lines s).countP fun line => !(ofLine line).isVerbatim := by
  rw [recognized, parse, ← List.countP_eq_length_filter, List.countP_map]
  rfl

theorem mem_map_line_notesOn_iff : n ∈ (notesOn s).map Note.line ↔
    (∃ t, (parse s).line n = .ok (.verbatim t)) ∧
      ∃ line, (lines s)[n]? = some line ∧ Attempts line := by
  have hmem : n ∈ (notesOn s).map Note.line ↔
      ∃ line, (lines s)[n]? = some line ∧ (diagnostic? line).isSome = true := by
    simp only [List.mem_map, Option.isSome_iff_exists]
    constructor
    · rintro ⟨note, hnote, rfl⟩
      obtain ⟨line, hline, hdiagnostic⟩ := mem_notesOn_iff.mp hnote
      exact ⟨line, hline, _, hdiagnostic⟩
    · rintro ⟨line, hline, e, he⟩
      exact ⟨⟨n, e⟩, mem_notesOn_iff.mpr ⟨line, hline, he⟩, rfl⟩
  have hverbatim {st : Statement} : st.isVerbatim = true ↔ ∃ t, st = .verbatim t := by
    cases st <;> simp [isVerbatim]
  simp only [hmem, isSome_diagnostic?_iff, hverbatim, line_parse_eq_ok_iff]
  constructor
  · rintro ⟨line, hline, ⟨t, ht⟩, hattempt⟩
    exact ⟨⟨t, line, hline, ht⟩, line, hline, hattempt⟩
  · rintro ⟨⟨t, line, hline, ht⟩, line', hline', hattempt⟩
    obtain rfl := Option.some.inj (hline.symm.trans hline')
    exact ⟨line, hline, ⟨t, ht⟩, hattempt⟩

/-- Notes come in the order of the lines, on exactly the verbatim lines that were attempts at a
statement; the other verbatim lines are unrecognized as a whole, and no line is counted twice or left
out. The log has, in the order of the lines, a record for each note, which gives its column, its
message and its line, and one for each recognised statement, and no other. -/
theorem lines_accounted (s : Text) :
    ((notesOn s).map Note.line).Pairwise (· < ·) ∧
    (∀ n, n ∈ (notesOn s).map Note.line ↔ (∃ t, (parse s).line n = .ok (.verbatim t)) ∧
      ∃ line, (lines s)[n]? = some line ∧ Attempts line) ∧
    (∀ n t, (parse s).line n = .ok (.verbatim t) → n ∉ (notesOn s).map Note.line →
      ∃ line, (lines s)[n]? = some line ∧ Statement.parse line = .error ⟨.unrecognized, 0⟩) ∧
    (parse s).recognized + (notesOn s).length + (lines s).countP isIgnored = (parse s).length ∧
    ∃ records : List (Nat × Log.Entry), (records.map Prod.fst).Pairwise (· < ·) ∧
      Log.ofText s = records.map Prod.snd ∧
      ∀ n entry, (n, entry) ∈ records ↔
        (∃ e line quoted, ⟨n, e⟩ ∈ notesOn s ∧ (lines s)[n]? = some line ∧
          Log.Quotation line quoted ∧ entry = ⟨.debug, "kept verbatim (".toList ++
            Numeral.decimal e.column ++ ": ".toList ++ e.cause.message ++ "): ".toList ++ quoted⟩) ∨
          ∃ st told, (parse s).line n = .ok st ∧ Log.Tells st told ∧ entry = ⟨.trace, told⟩ := by
  have hnumbers := map_notesOn s
  refine ⟨?_, fun n => mem_map_line_notesOn_iff, fun n t hn hnote => ?_, ?_,
    numbered Log.record? (lines s), ?_, ?_, fun n entry => ?_⟩
  · have hpairwise := pairwise_numbered diagnostic? (lines s)
    rw [← hnumbers, List.pairwise_map] at hpairwise
    exact List.pairwise_map.mpr hpairwise
  · obtain ⟨line, hline, ht⟩ := line_parse_eq_ok_iff.mp hn
    refine ⟨line, hline, parse_of_not_attempts (by rw [ht, isVerbatim]) fun hattempt => hnote ?_⟩
    exact mem_map_line_notesOn_iff.mpr ⟨⟨t, hn⟩, line, hline, hattempt⟩
  · rw [recognized_parse, length_notesOn, countP_kinds, length_parse]
  -- The records are found on the lines one by one, so they are numbered as the lines are.
  · exact List.pairwise_map.mpr (pairwise_numbered Log.record? (lines s))
  · rw [map_snd_numbered, Log.ofText_eq_filterMap]
  · simp only [mem_numbered_iff, Log.record?_eq_some_iff, mem_notesOn_iff, line_parse_eq_ok_iff]
    constructor
    · rintro ⟨line, hline, ⟨e, quoted, he, hquoted, hentry⟩ | ⟨st, told, hst, htold, hentry⟩⟩
      · exact .inl ⟨e, line, quoted, ⟨line, hline, he⟩, hline, hquoted, hentry⟩
      · exact .inr ⟨st, told, ⟨line, hline, (parse_eq_ok_iff_ofLine.mp hst).1⟩, htold, hentry⟩
    · rintro (⟨e, line, quoted, ⟨line', hline', he⟩, hline, hquoted, hentry⟩ |
        ⟨st, told, ⟨line, hline, hofLine⟩, htold, hentry⟩)
      · obtain rfl := Option.some.inj (hline.symm.trans hline')
        exact ⟨line, hline, .inl ⟨e, quoted, he, hquoted, hentry⟩⟩
      · have hst := parse_eq_ok_iff_ofLine.mpr ⟨hofLine, (Log.tells_iff.mp htold).1⟩
        exact ⟨line, hline, .inr ⟨st, told, hst, htold, hentry⟩⟩

end Document
end MaterialText
