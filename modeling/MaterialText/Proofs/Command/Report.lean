import MaterialText.Command.Outcome
import MaterialText.Proofs.Command.CommandLine
import MaterialText.Proofs.Document.RoundTrip
import MaterialText.Proofs.Material.Directory

namespace MaterialText.Command

def endedLines (ls : List Text) : Text := ls.flatMap (· ++ ['\n'])

/-- A note in lines: its place, the line that it is on, a caret below the column, the cause, and an
empty line. -/
def noteLines (n : Note) (line : Text) : List Text :=
  ["NOTE AT LINE ".toList ++ Numeral.decimal (n.line + 1) ++ [':'],
    line,
    List.replicate n.diagnostic.column ' ' ++ ['^'],
    "kept verbatim: ".toList ++ n.diagnostic.cause.message,
    []]

/-- A text reports a note with the line that it is on. -/
def Reports (s : Text) (n : Note) (t : Text) : Prop :=
  ∃ line, (lines s)[n.line]? = some line ∧ t = endedLines (noteLines n line)

/-- The text that a run reads: the input as it is, or the file at the path without its mark. -/
inductive Reads (read : Reader) (input : ByteArray) (cs : List Choice) : Text → Prop
  | input {s : Text} (hpath : ∀ name, .path name ∉ cs) (h : input = Text.encode s) :
      Reads read input cs s
  | file {name s : Text} (hpath : .path name ∈ cs) (h : read name = .ok (Text.encode s)) :
      Reads read input cs (Text.dropMark s)

variable {read : Reader} {input : ByteArray} {cs : List Choice} {arguments ls : List Text}
  {s line : Text} {n : Note} {settings settings' : Settings}

theorem reportNote_eq (h : ls[n.line]? = some line) :
    reportNote ls n = endedLines (noteLines n line) := by
  have hcolon : ":\n".toList = [':', '\n'] := rfl
  have hcaret : "^\n".toList = ['^', '\n'] := rfl
  have hblank : "\n\n".toList = ['\n', '\n'] := rfl
  unfold reportNote
  rw [h, hcolon, hcaret, hblank]
  simp only [endedLines, noteLines, List.flatMap_cons, List.flatMap_nil, List.append_assoc,
    List.cons_append, List.nil_append, List.append_nil, Option.getD_some]

/-- The report on a rendering reports the notes on the text itself. -/
theorem exists_report_render (s : Text) (joining : Joining) :
    ∃ texts, List.Forall₂ (Reports s) (notesOn s) texts ∧
      report ((Document.parse s).render joining) = texts.flatten := by
  refine ⟨(notesOn s).map (reportNote (lines ((Document.parse s).render joining))), ?_, ?_⟩
  · rw [List.forall₂_map_right_iff, List.forall₂_same]
    intro n hn
    obtain ⟨line, hline, hrendered⟩ := getElem?_lines_of_mem_notesOn hn joining
    exact ⟨line, hline, reportNote_eq hrendered⟩
  · rw [report, notesOn_rendered]
    rfl

theorem source_of_reads (h : Reads read input cs s) (hs : ∀ c, settings.Holds c ↔ c ∈ cs) :
    ∃ name, source read input settings.path? = .ok (Material.ofText name s) := by
  cases h with
  | input hpath h =>
    have hnone : settings.path? = none := by
      apply Option.eq_none_iff_forall_ne_some.mpr
      intro name hname
      exact hpath name ((hs (.path name)).mp hname)
    refine ⟨"<stdin>".toList, ?_⟩
    rw [hnone, h]
    simp only [source, Text.decode?_encode]
  | @file name s hpath h =>
    have hsome : settings.path? = some name := (hs (.path name)).mpr hpath
    refine ⟨name, ?_⟩
    rw [hsome]
    simp only [source, Material.load_of_encode h]
    rfl

theorem output_perform_congr (hpath : settings.path? = settings'.path?)
    (hformat : settings.format? = settings'.format?)
    (hjoining : settings.joining = settings'.joining) :
    (perform read input settings).output = (perform read input settings').output := by
  unfold perform written Settings.format
  rw [hpath, hformat, hjoining]
  cases source read input settings'.path? <;> rfl

theorem output_perform_eq (hs : ∀ c, settings.Holds c ↔ c ∈ cs)
    (hs' : ∀ c, settings'.Holds c ↔ c ∈ cs.erase (.switch .explain)) :
    (perform read input settings).output = (perform read input settings').output := by
  have hholds : ∀ c, c ≠ .switch .explain → (settings.Holds c ↔ settings'.Holds c) := by
    intro c hc
    rw [hs, hs', List.mem_erase_of_ne hc]
  have hswitch : ∀ switch, switch ≠ .explain → settings.has switch = settings'.has switch := by
    intro switch hne
    have hc : Choice.switch switch ≠ .switch .explain := by simpa using hne
    exact Bool.eq_iff_iff.mpr (hholds _ hc)
  apply output_perform_congr
  · ext name
    exact hholds (.path name) (by simp)
  · ext f
    exact hholds (.format f) (by simp)
  · rw [Settings.joining, Settings.joining, hswitch .crlf (by decide),
      hswitch .trailingNewline (by decide)]

/-- With the report a run that has its document succeeds, and reports the notes on the text that the
document was read from. -/
theorem perform_explain {name : Text} (hhas : settings.has .explain = true)
    (hsource : source read input settings.path? = .ok (Material.ofText name s)) :
    (perform read input settings).code = 0 ∧
    ∃ texts, List.Forall₂ (Reports s) (notesOn s) texts ∧
      (perform read input settings).errors = texts.flatten := by
  obtain ⟨texts, htexts, hreport⟩ := exists_report_render s {}
  have hperform : perform read input settings =
      ⟨0, written (Document.parse s) settings, report ((Document.parse s).render {})⟩ := by
    rw [perform, hsource]
    dsimp only
    rw [if_pos hhas]
    rfl
  rw [hperform]
  exact ⟨rfl, texts, htexts, hreport⟩

/-- A run that is asked for the report succeeds, writes what it would write without, and reports the
notes on the text that it read, in their order and each with its line, whatever else is chosen. -/
theorem run_explain {reader : ArgumentReader} (hreader : ReadsChoices reader)
    (h : Chooses cs arguments) (hcs : (cs.map Choice.slot).Nodup)
    (hexplain : .switch .explain ∈ cs) (hreads : Reads read input cs s) :
    (runWith reader read input arguments).code = 0 ∧
    (runWith reader read input arguments).output =
      (runWith reader read input (arguments.erase (Switch.option .explain))).output ∧
    ∃ texts, List.Forall₂ (Reports s) (notesOn s) texts ∧
      (runWith reader read input arguments).errors = texts.flatten := by
  have hcs' : ((cs.erase (.switch .explain)).map Choice.slot).Nodup :=
    hcs.sublist (List.erase_sublist.map _)
  obtain ⟨settings, hsettings, hs⟩ := hreader cs arguments h hcs
  obtain ⟨settings', hsettings', hs'⟩ := hreader _ _ (h.erase_explain hexplain) hcs'
  obtain ⟨name, hsource⟩ := source_of_reads hreads hs
  obtain ⟨hcode, hreport⟩ := perform_explain ((hs _).mpr hexplain) hsource
  have hrun : runWith reader read input arguments = perform read input settings := by
    rw [runWith, hsettings]
  have hrun' : runWith reader read input (arguments.erase (Switch.option .explain)) =
      perform read input settings' := by
    rw [runWith, hsettings']
  rw [hrun, hrun']
  exact ⟨hcode, output_perform_eq hs hs', hreport⟩

theorem run_explain_file :
    ([.path "m.fx".toList, .format .json, .switch .explain, .switch .crlf].map
      Choice.slot).Nodup ∧
    (run ((Directory.ofFiles [("m.fx".toList, Text.encode "\uFEFF#define X 1 2".toList)]).read
      .empty) .empty ["m.fx".toList, "-f=json".toList, "--explain".toList, "--crlf".toList]).code = 0 ∧
    (run ((Directory.ofFiles [("m.fx".toList, Text.encode "\uFEFF#define X 1 2".toList)]).read
      .empty) .empty ["m.fx".toList, "-f=json".toList, "--explain".toList, "--crlf".toList]).errors =
        ("NOTE AT LINE 1:\n#define X 1 2\n            ^\n" ++
          "kept verbatim: unexpected text after statement\n\n").toList := by
  have hslots : ([Choice.path "m.fx".toList, .format .json, .switch .explain, .switch .crlf].map
      Choice.slot).Nodup := by decide
  have hchooses : Chooses [.path "m.fx".toList, .format .json, .switch .explain, .switch .crlf]
      ["m.fx".toList, "-f=json".toList, "--explain".toList, "--crlf".toList] :=
    .cons (.path (.inr (by decide))) (.cons (.formatJoined (.inr (.inr rfl)) .json)
      (.cons (.switch .explain) (.cons (.switch .crlf) .nil)))
  have hname : Directory.IsName "m.fx".toList := ⟨by decide, by decide, by decide⟩
  have hread : (Directory.ofFiles [("m.fx".toList, Text.encode "\uFEFF#define X 1 2".toList)]).read
      .empty "m.fx".toList = .ok (Text.encode "\uFEFF#define X 1 2".toList) :=
    Directory.read_of_lookup (Directory.isPath_of_name hname (by decide) (by decide)) rfl (by simp)
  obtain ⟨hcode, -, texts, htexts, herrors⟩ :=
    run_explain readsChoices_settingsOf hchooses hslots (by simp) (.file (by simp) hread)
  have hlines : lines (Text.dropMark "\uFEFF#define X 1 2".toList) = ["#define X 1 2".toList] :=
    lines_of_noBreaks (by decide) (by decide)
  have hnotes : notesOn (Text.dropMark "\uFEFF#define X 1 2".toList) =
      [⟨0, ⟨.trailingText, 12⟩⟩] := by
    rw [notesOn, hlines]
    decide
  refine ⟨hslots, hcode, ?_⟩
  rw [hnotes] at htexts
  rw [run, herrors]
  cases htexts with
  | cons hreport hnil =>
    cases hnil
    obtain ⟨line, hline, rfl⟩ := hreport
    rw [hlines] at hline
    obtain rfl := Option.some.inj hline
    decide

end MaterialText.Command
