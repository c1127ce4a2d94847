import MaterialText.Proofs.Document.NullCharacter
import MaterialText.Proofs.Json.View
import MaterialText.Proofs.Session.Step
import MaterialText.Proofs.Text.Buffer

namespace MaterialText.Session
open Text

variable {grants : Nat → Bool} {store : Store} {call : Call} {id : Id} {d : Document} {s : Text}

/-- All of the text is seen, and the size of its buffer is one more than that of what is seen. -/
def Reply.IsWhole (reply : Reply) : Prop :=
  ∃ produced, reply = .text produced ∧ reply.seen? = some produced ∧
    beforeZero (buffer produced) = bytes produced ∧
    (beforeZero (buffer produced)).length + 1 = (buffer produced).length

theorem isWhole_text_iff : (Reply.text s).IsWhole ↔ '\x00' ∉ s := by
  constructor
  · rintro ⟨produced, hproduced, -, hbytes, -⟩
    obtain rfl := Reply.text.inj hproduced
    exact beforeZero_buffer_eq_iff.mp hbytes
  · intro h
    exact ⟨s, rfl, congrArg some (terminated_eq_self_iff.mpr h), beforeZero_buffer_eq_iff.mpr h,
      length_beforeZero_buffer_iff.mpr h⟩

/-- A text made of the document of a session is whole if it has no null character for any document
that is open, and for none. -/
theorem isWhole_view {view : Document → Text} {closed : Text} {d? : Option Document}
    (hview : ∀ d ∈ d?, terminated (view d) = view d) (hclosed : terminated closed = closed) :
    (Reply.text ((d?.map view).getD closed)).IsWhole := by
  rw [isWhole_text_iff, ← terminated_eq_self_iff]
  cases d? with
  | none => exact hclosed
  | some d => exact hview d rfl

theorem document?_of_perform (h : (perform store call).2.document? id = some d) :
    d = {} ∨ (∃ s, call = .load id s ∧ d = Document.parse s) ∨ store.document? id = some d := by
  rw [document?_perform] at h
  cases call with
  | create =>
    dsimp only at h
    split at h
    · exact .inl (Option.some.inj h).symm
    · exact .inr (.inr h)
  | load named source =>
    dsimp only at h
    split at h
    · rename_i hnamed
      exact .inr (.inl ⟨source, by rw [hnamed.1], (Option.some.inj h).symm⟩)
    · exact .inr (.inr h)
  | free named =>
    dsimp only at h
    split at h
    · cases h
    · exact .inr (.inr h)
  | _ => exact .inr (.inr h)

theorem exists_source (calls : List Call) (h : (final (.empty grants) calls).document? id = some d) :
    ∃ s, (s = [] ∨ .load id s ∈ calls) ∧ d = Document.parse s := by
  induction calls using List.reverseRecOn generalizing d with
  | nil => cases h
  | append_singleton calls call ih =>
    rw [final_append] at h
    obtain rfl | ⟨s, rfl, rfl⟩ | hbefore := document?_of_perform h
    · exact ⟨[], .inl rfl, Document.parse_nil.symm⟩
    · exact ⟨s, .inr (by simp), rfl⟩
    · obtain ⟨s, hs, rfl⟩ := ih hbefore
      exact ⟨s, hs.imp_right (List.mem_append_left _), rfl⟩

theorem isWhole_render_iff (s : Text) :
    (Reply.text (Document.parse s).render).IsWhole ↔ '\x00' ∉ s := by
  rw [isWhole_text_iff, Document.null_mem_render_iff]

theorem reply_render (h : store.document? id = some d) :
    (perform store (.render id)).1 = .text d.render := by
  rw [perform, h]
  rfl

theorem reply_render_of_closed (h : store.document? id = none) :
    (perform store (.render id)).1 = .text [] := by
  rw [perform, h]
  rfl

/-- In every state that a run reaches, the view and the notes of a session are handed out whole. Its
rendering is if and only if there is no null character in the text that its document was read from,
which some call loaded into it; a text that was loaded just before is that text. -/
theorem isWhole_perform (grants : Nat → Bool) (calls : List Call) (id : Id) :
    (∀ source, (perform (final (.empty grants) calls) (.load id source)).1.IsWhole) ∧
    (perform (final (.empty grants) calls) (.json id)).1.IsWhole ∧
    (perform (final (.empty grants) calls) (.notes id)).1.IsWhole ∧
    (∃ s, (s = [] ∨ .load id s ∈ calls) ∧
      (perform (final (.empty grants) calls) (.render id)).1 = .text (Document.parse s).render ∧
      ((perform (final (.empty grants) calls) (.render id)).1.IsWhole ↔ '\x00' ∉ s)) ∧
    ∀ source, (final (.empty grants) calls).isOpen id = true →
      ((perform (perform (final (.empty grants) calls) (.load id source)).2 (.render id)).1.IsWhole ↔
        '\x00' ∉ source) := by
  refine ⟨fun source => ?_, ?_, ?_, ?_, fun source hopen => ?_⟩
  · rw [reply_load]
    exact isWhole_view (fun _ _ => Document.terminated_json source) rfl
  · refine isWhole_view (fun d hd => ?_) rfl
    obtain ⟨s, -, rfl⟩ := exists_source calls hd
    exact Document.terminated_json s
  · exact isWhole_view (fun d _ => Note.terminated_json (notesOn d.render)) rfl
  · cases hd : (final (.empty grants) calls).document? id with
    | none =>
      have hempty : (Document.parse []).render = [] := by rw [Document.parse_nil]; rfl
      rw [reply_render_of_closed hd]
      refine ⟨[], .inl rfl, congrArg Reply.text hempty.symm, ?_⟩
      rw [isWhole_text_iff]
    | some d =>
      obtain ⟨s, hs, rfl⟩ := exists_source calls hd
      rw [reply_render hd]
      exact ⟨s, hs, rfl, isWhole_render_iff s⟩
  · have hloaded : (perform (final (.empty grants) calls) (.load id source)).2.document? id =
        some (Document.parse source) := by
      rw [document?_perform]
      exact if_pos ⟨rfl, hopen⟩
    rw [reply_render hloaded]
    exact isWhole_render_iff source

theorem isWhole_perform_quoted_null : (final (.empty fun _ => true) [.create]).isOpen 1 = true ∧
    ¬(perform (perform (final (.empty fun _ => true) [.create])
      (.load 1 "#define A \"\x00\"".toList)).2 (.render 1)).1.IsWhole := by
  have hopen : (final (.empty fun _ => true) [.create]).isOpen 1 = true := by decide
  have hwhole := (isWhole_perform (fun _ => true) [.create] 1).2.2.2.2
    "#define A \"\x00\"".toList hopen
  exact ⟨hopen, fun h => hwhole.mp h (by decide)⟩

theorem render_cut_short :
    (perform (final (.empty fun _ => true) [.create, .load 1 "a\x00b".toList])
      (.render 1)).1 = .text "a\x00b".toList ∧
    (perform (final (.empty fun _ => true) [.create, .load 1 "a\x00b".toList])
      (.render 1)).1.seen? = some "a".toList ∧
    ¬(perform (final (.empty fun _ => true) [.create, .load 1 "a\x00b".toList])
      (.render 1)).1.IsWhole := by
  have hparse : Document.parse "a\x00b".toList = ⟨[.verbatim "a\x00b".toList]⟩ := by
    have hlines : lines "a\x00b".toList = ["a\x00b".toList] :=
      lines_of_noBreaks (by decide) (by decide)
    rw [Document.parse, hlines]
    decide
  have hloaded : (final (.empty fun _ => true) [.create, .load 1 "a\x00b".toList]).document? 1 =
      some (Document.parse "a\x00b".toList) := rfl
  have hrender : (Document.parse "a\x00b".toList).render = "a\x00b".toList := by
    rw [hparse]
    rfl
  rw [reply_render hloaded, hrender, isWhole_text_iff]
  exact ⟨rfl, rfl, by decide⟩

end MaterialText.Session
