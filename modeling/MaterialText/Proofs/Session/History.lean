import MaterialText.Proofs.Document.RoundTrip
import MaterialText.Proofs.Json.View
import MaterialText.Proofs.Session.Step

namespace MaterialText.Session

variable (grants : Nat → Bool)

abbrev Exchange := Call × Reply

/-- The calls with their replies, where no session is open at first. -/
def history (calls : List Call) : List Exchange := calls.zip (run (.empty grants) calls)

def creations (past : List Exchange) : Nat := (past.map Prod.fst).count .create

def Call.loaded? (id : Id) : Call → Option Text
  | .load named source => if named = id then some source else none
  | _ => none

/-- The source of the last load of a session, the empty text if there is none. -/
def lastSource (id : Id) (past : List Exchange) : Text :=
  (past.filterMap fun e => e.1.loaded? id).getLast?.getD []

/-- A session was created and has not been freed since. -/
def IsOpen (past : List Exchange) (id : Id) : Prop :=
  ∃ before after, past = before ++ (.create, .created id) :: after ∧ ∀ e ∈ after, e.1 ≠ .free id

def HasSource (past : List Exchange) (id : Id) (s : Text) : Prop :=
  ∃ before after, past = before ++ (.create, .created id) :: after ∧
    (∀ e ∈ after, e.1 ≠ .free id) ∧ s = lastSource id after

/-- What the caller sees of a session: a view of its source while it is open. -/
def Shows (past : List Exchange) (id : Id) (view : Text → Text) (closed : Text) (reply : Reply) :
    Prop :=
  (∀ s, HasSource past id s → reply.seen? = some (view s)) ∧
    (¬IsOpen past id → reply.seen? = some closed)

/-- The reply that the history calls for. The notes are those on the loaded source itself. -/
def Answers (past : List Exchange) : Call → Reply → Prop
  | .create, reply => ∃ id, reply = .created id ∧ id.toNat = creations past + 1
  | .load id source, reply =>
    Shows past id (fun _ => (Document.parse source).json .compact) "[]".toList reply
  | .render id, reply =>
    Shows past id (fun s => Text.terminated (Document.parse s).render) [] reply
  | .json id, reply =>
    Shows past id (fun s => (Document.parse s).json .compact) "[]".toList reply
  | .notes id, reply => Shows past id (fun s => Note.json (notesOn s)) "[]".toList reply
  | .free _, reply => reply = .freed
  | .reserve size, reply =>
    ∃ granted, reply = .reserved granted ∧ (granted = true ↔ size < 2 ^ 63 ∧ grants size = true)

def repliesAfter (before after : List Call) : List Reply :=
  (run (.empty grants) (before ++ after)).drop before.length

variable {grants} {past : List Exchange} {store : Store} {call : Call} {id : Id} {s : Text}
  {e : Exchange}

theorem isOpen_iff_hasSource : IsOpen past id ↔ ∃ s, HasSource past id s := by
  constructor
  · rintro ⟨before, after, hpast, hfree⟩
    exact ⟨_, before, after, hpast, hfree, rfl⟩
  · rintro ⟨s, before, after, hpast, hfree, -⟩
    exact ⟨before, after, hpast, hfree⟩

theorem lastSource_concat (id : Id) (past : List Exchange) (e : Exchange) :
    lastSource id (past ++ [e]) = (e.1.loaded? id).getD (lastSource id past) := by
  rw [lastSource, lastSource, List.filterMap_append]
  cases h : e.1.loaded? id with
  | none => simp [h]
  | some source => simp [h]

theorem hasSource_concat : HasSource (past ++ [e]) id s ↔
    (e = (.create, .created id) ∧ s = []) ∨
      (e.1 ≠ .free id ∧ ∃ t, HasSource past id t ∧ s = (e.1.loaded? id).getD t) := by
  constructor
  · rintro ⟨before, after, hpast, hfree, rfl⟩
    rcases List.eq_nil_or_concat' after with rfl | ⟨after, last, rfl⟩
    · left
      obtain ⟨-, he⟩ := List.append_inj' hpast rfl
      exact ⟨List.singleton_inj.mp he, rfl⟩
    · right
      rw [← List.cons_append, ← List.append_assoc] at hpast
      obtain ⟨rfl, he⟩ := List.append_inj' hpast rfl
      obtain rfl := List.singleton_inj.mp he
      rw [List.forall_mem_append, List.forall_mem_singleton] at hfree
      exact ⟨hfree.2, _, ⟨before, after, rfl, hfree.1, rfl⟩, lastSource_concat id after e⟩
  · rintro (⟨rfl, rfl⟩ | ⟨he, t, ⟨before, after, rfl, hfree, rfl⟩, rfl⟩)
    · exact ⟨past, [], rfl, List.forall_mem_nil _, rfl⟩
    · refine ⟨before, after ++ [e], by simp, ?_, (lastSource_concat id after e).symm⟩
      exact List.forall_mem_append.mpr ⟨hfree, List.forall_mem_singleton.mpr he⟩

theorem hasSource_create {new : Id} : HasSource (past ++ [(.create, .created new)]) id s ↔
    (new = id ∧ s = []) ∨ HasSource past id s := by
  simp [hasSource_concat, Call.loaded?]

theorem hasSource_load {named : Id} {source : Text} {reply : Reply} :
    HasSource (past ++ [(.load named source, reply)]) id s ↔
      if named = id then IsOpen past id ∧ s = source else HasSource past id s := by
  by_cases h : named = id
  · simp [hasSource_concat, isOpen_iff_hasSource, Call.loaded?, h]
  · simp [hasSource_concat, Call.loaded?, h]

theorem hasSource_free {named : Id} {reply : Reply} :
    HasSource (past ++ [(.free named, reply)]) id s ↔ named ≠ id ∧ HasSource past id s := by
  simp [hasSource_concat, Call.loaded?]

theorem hasSource_of_view (past : List Exchange) (reply : Reply) (id : Id) (s : Text)
    (hcreate : call ≠ .create) (hfree : call ≠ .free id) (hload : call.loaded? id = none) :
    HasSource (past ++ [(call, reply)]) id s ↔ HasSource past id s := by
  simp [hasSource_concat, hcreate, hfree, hload]

theorem creations_concat (past : List Exchange) (e : Exchange) :
    creations (past ++ [e]) = creations past + if e.1 = .create then 1 else 0 := by
  rw [creations, creations, List.map_append, List.count_append, List.map_singleton,
    List.count_singleton]
  simp only [beq_iff_eq]

/-- The sessions are what the history says. -/
structure Reflects (past : List Exchange) (store : Store) : Prop where
  next : store.next.toNat = creations past + 1
  created : ∀ id, (.create, .created id) ∈ past → id.toNat < store.next.toNat
  count : ∀ id, past.count (.create, .created id) ≤ 1
  document? : ∀ id d, store.document? id = some d ↔ ∃ s, HasSource past id s ∧ d = Document.parse s

theorem reflects_nil : Reflects [] (.empty grants) := by
  refine ⟨rfl, fun _ h => absurd h List.not_mem_nil, fun _ => Nat.zero_le 1, fun id d => ?_⟩
  constructor
  · intro h
    cases h
  · rintro ⟨s, ⟨before, after, h, -⟩, -⟩
    simp at h

theorem Reflects.document?_next (h : Reflects past store) : store.document? store.next = none := by
  apply Option.eq_none_iff_forall_ne_some.mpr
  intro d hd
  obtain ⟨s, ⟨before, after, rfl, -⟩, -⟩ := (h.document? _ d).mp hd
  have hlt := h.created store.next (by simp)
  omega

theorem Reflects.isOpen (h : Reflects past store) (id : Id) :
    store.isOpen id = true ↔ IsOpen past id := by
  rw [Store.isOpen, Option.isSome_iff_exists, isOpen_iff_hasSource]
  constructor
  · rintro ⟨d, hd⟩
    obtain ⟨s, hs, -⟩ := (h.document? id d).mp hd
    exact ⟨s, hs⟩
  · rintro ⟨s, hs⟩
    exact ⟨_, (h.document? id _).mpr ⟨s, hs, rfl⟩⟩

theorem Reflects.document?_eq_none (h : Reflects past store) (hopen : ¬IsOpen past id) :
    store.document? id = none :=
  Option.not_isSome_iff_eq_none.mp fun hsome => hopen ((h.isOpen id).mp hsome)

theorem Reflects.create (h : Reflects past store) (hcount : creations past + 1 < 2 ^ 32 - 1) :
    Reflects (past ++ [(.create, .created store.next)]) store.create := by
  -- The numbers do not run out: fewer sessions were created than there are numbers.
  have hnext : (store.next + 1).toNat = store.next.toNat + 1 := by
    have hlt := h.next
    rw [UInt32.toNat_add]
    change (store.next.toNat + 1) % 2 ^ 32 = _
    omega
  have hfresh : (Call.create, Reply.created store.next) ∉ past := fun hmem =>
    lt_irrefl _ (h.created store.next hmem)
  refine ⟨?_, fun id hid => ?_, fun id => ?_, fun id d => ?_⟩
  · change (store.next + 1).toNat = _
    rw [hnext, h.next, creations_concat, if_pos rfl]
  · change _ < (store.next + 1).toNat
    rw [hnext]
    rcases List.mem_append.mp hid with hid | hid
    · exact Nat.lt_succ_of_lt (h.created id hid)
    · obtain rfl : id = store.next := by simpa using hid
      exact Nat.lt_succ_self _
  · rw [List.count_append]
    by_cases hid : id = store.next
    · rw [hid, List.count_eq_zero_of_not_mem hfresh, Nat.zero_add]
      exact List.count_le_length
    · have hnew : (Call.create, Reply.created id) ∉ [(Call.create, Reply.created store.next)] := by
        simpa using hid
      rw [List.count_eq_zero_of_not_mem hnew]
      exact h.count id
  · rw [Store.document?_create]
    simp only [hasSource_create]
    by_cases hid : id = store.next
    · -- The new session has no source from before, as no document was under its number.
      subst hid
      have hnone (t : Text) : ¬HasSource past store.next t := fun ht => by
        have hdocument := (h.document? store.next _).mpr ⟨t, ht, rfl⟩
        rw [h.document?_next] at hdocument
        cases hdocument
      simp only [if_true, true_and, hnone, or_false, exists_eq_left, Document.parse_nil,
        Option.some.injEq]
      exact eq_comm
    · simp only [if_neg hid, Ne.symm hid, false_and, false_or, h.document?]

theorem Reflects.perform_of_ne (h : Reflects past store) (hcall : call ≠ .create) (reply : Reply) :
    Reflects (past ++ [(call, reply)]) (perform store call).2 := by
  have hnew (id : Id) : (Call.create, Reply.created id) ∉ [(call, reply)] := by
    intro hmem
    exact hcall (Prod.mk.inj (List.mem_singleton.mp hmem)).1.symm
  refine ⟨?_, fun id hid => ?_, fun id => ?_, fun id d => ?_⟩
  · rw [next_perform, if_neg hcall, creations_concat, if_neg hcall, h.next]
  · rw [next_perform, if_neg hcall]
    exact h.created id ((List.mem_append.mp hid).resolve_right (hnew id))
  · rw [List.count_append, List.count_eq_zero_of_not_mem (hnew id)]
    exact h.count id
  · rw [document?_perform]
    cases call with
    | create => exact absurd rfl hcall
    | load named source =>
      -- A load changes a document only if its session is open.
      simp only [hasSource_load, ← h.isOpen]
      by_cases hid : named = id
      · subst hid
        by_cases hopen : store.isOpen named = true
        · simp [hopen, eq_comm]
        · have hclosed := Option.not_isSome_iff_eq_none.mp hopen
          simp [hopen, hclosed]
      · simp only [if_neg hid, Ne.symm hid, false_and, if_false, h.document?]
    | free named =>
      simp only [hasSource_free]
      by_cases hid : named = id
      · simp [hid]
      · simp only [if_neg (Ne.symm hid), ne_eq, hid, not_false_eq_true, true_and, h.document?]
    | _ =>
      have hsource (s : Text) := hasSource_of_view past reply id s hcall (by simp) rfl
      simp only [h.document?, hsource]

theorem Reflects.perform (h : Reflects past store) (call : Call)
    (hcount : call = .create → creations past + 1 < 2 ^ 32 - 1) :
    Reflects (past ++ [(call, (perform store call).1)]) (perform store call).2 := by
  by_cases hcall : call = .create
  · subst hcall
    exact h.create (hcount rfl)
  · exact h.perform_of_ne hcall _

theorem Reflects.shows (h : Reflects past store) (id : Id) (view : Document → Text)
    {shown : Text → Text} {closed : Text}
    (hview : ∀ s, Text.terminated (view (Document.parse s)) = shown s)
    (hclosed : Text.terminated closed = closed) :
    Shows past id shown closed (.text (((store.document? id).map view).getD closed)) := by
  refine ⟨fun s hs => ?_, fun hopen => ?_⟩
  · have hdocument := (h.document? id _).mpr ⟨s, hs, rfl⟩
    rw [hdocument, Reply.seen?, Option.map_some, Option.getD_some, hview]
  · rw [h.document?_eq_none hopen, Reply.seen?, Option.map_none, Option.getD_none, hclosed]

theorem Reflects.answers (h : Reflects past store) (call : Call) :
    Answers store.grants past call (Session.perform store call).1 := by
  cases call with
  | create => exact ⟨store.next, rfl, h.next⟩
  | load id source =>
    rw [reply_load]
    exact h.shows id _ (fun _ => Document.terminated_json source) rfl
  | render id => exact h.shows id (fun d => d.render) (fun _ => rfl) rfl
  | json id => exact h.shows id (fun d => d.json .compact) Document.terminated_json rfl
  | notes id =>
    refine h.shows id (fun d => Note.json (notesOn d.render)) (fun s => ?_) rfl
    rw [Note.terminated_json, notesOn_rendered]
  | free id => rfl
  | reserve size =>
    have hsize : size ≤ maxSize ↔ size < 2 ^ 63 := by rw [maxSize]; omega
    exact ⟨_, rfl, by rw [Bool.and_eq_true, decide_eq_true_eq, hsize]⟩

@[simp]
theorem map_fst_history (grants : Nat → Bool) (calls : List Call) :
    (history grants calls).map Prod.fst = calls := by
  apply List.map_fst_zip
  rw [length_run]

@[simp]
theorem length_history (grants : Nat → Bool) (calls : List Call) :
    (history grants calls).length = calls.length := by
  have hlen := congrArg List.length (map_fst_history grants calls)
  rwa [List.length_map] at hlen

theorem history_append (grants : Nat → Bool) (before after : List Call) :
    history grants (before ++ after) =
      history grants before ++ after.zip (run (final (.empty grants) before) after) := by
  rw [history, run_append, List.zip_append (length_run _ _).symm]
  rfl

/-- The sessions are what the history says after every run. -/
theorem reflects_history (grants : Nat → Bool) (calls : List Call)
    (hcount : calls.count .create < 2 ^ 32 - 1) :
    Reflects (history grants calls) (final (.empty grants) calls) := by
  induction calls using List.reverseRecOn with
  | nil => exact reflects_nil
  | append_singleton calls call ih =>
    rw [List.count_append] at hcount
    rw [history_append, final_append]
    refine (ih (Nat.lt_of_le_of_lt (Nat.le_add_right _ _) hcount)).perform call fun hcall => ?_
    rw [hcall, List.count_singleton_self] at hcount
    rwa [creations, map_fst_history]

theorem answers_of_history {calls : List Call} {before after : List Exchange} {reply : Reply}
    (hcount : calls.count .create < 2 ^ 32 - 1)
    (h : history grants calls = before ++ (call, reply) :: after) :
    Answers grants before call reply := by
  have hcalls : calls = before.map Prod.fst ++ call :: after.map Prod.fst := by
    rw [← map_fst_history grants calls, h, List.map_append, List.map_cons]
  have hlen : (history grants (before.map Prod.fst)).length = before.length := by
    rw [length_history, List.length_map]
  have hprefix : (before.map Prod.fst).count .create < 2 ^ 32 - 1 := by
    rw [hcalls, List.count_append] at hcount
    omega
  rw [hcalls, history_append] at h
  obtain ⟨hbefore, hrest⟩ := List.append_inj h hlen
  obtain ⟨hexchange, -⟩ := List.cons.inj hrest
  obtain ⟨-, rfl⟩ := Prod.mk.inj hexchange
  have hanswers := (reflects_history grants _ hprefix).answers call
  rwa [hbefore, grants_final] at hanswers

theorem repliesAfter_eq (grants : Nat → Bool) (before after : List Call) :
    repliesAfter grants before after = run (final (.empty grants) before) after := by
  rw [repliesAfter, run_append]
  exact List.drop_left' (length_run _ _)

/-- In a run from no session, every call is answered as the history before it calls for, a session
is open that was created and not freed since, the numbers of the sessions are never given twice, a
call that names no open session changes no later reply, and no call changes a later reply to a call
that names another session or none. -/
theorem run_answers_history (grants : Nat → Bool) (calls : List Call)
    (hcount : calls.count .create < 2 ^ 32 - 1) :
    (history grants calls).map Prod.fst = calls ∧
    (∀ before call reply after, history grants calls = before ++ (call, reply) :: after →
      Answers grants before call reply) ∧
    (∀ id, (final (.empty grants) calls).isOpen id = true ↔ IsOpen (history grants calls) id) ∧
    (∀ id, (history grants calls).count (.create, .created id) ≤ 1) ∧
    ∀ before call after id, calls = before ++ call :: after → call.id? = some id →
      (¬IsOpen (history grants before) id →
        repliesAfter grants (before ++ [call]) after = repliesAfter grants before after) ∧
      ∀ (i : Nat) (later : Call), after[i]? = some later → later.id? ≠ some id →
        (repliesAfter grants (before ++ [call]) after)[i]? =
          (repliesAfter grants before after)[i]? := by
  have hreflects := reflects_history grants calls hcount
  refine ⟨map_fst_history grants calls,
    fun before call reply after h => answers_of_history hcount h,
    hreflects.isOpen, hreflects.count, fun before call after id hcalls hid => ⟨fun hclosed => ?_,
      fun i later hlater hother => ?_⟩⟩
  · have hprefix : before.count .create < 2 ^ 32 - 1 := by
      rw [hcalls, List.count_append] at hcount
      omega
    have hnone := (reflects_history grants before hprefix).document?_eq_none hclosed
    rw [repliesAfter_eq, repliesAfter_eq, final_append]
    exact (agree_perform_of_closed hid hnone).run_eq after
  -- The stores before the later calls differ in the named session only.
  · rw [repliesAfter_eq, repliesAfter_eq, final_append]
    refine (agree_perform (final (.empty grants) before) hid).run hlater fun other hnamed => ?_
    rintro rfl
    exact hother hnamed

theorem run_answers_history_loaded :
    [Call.create, .load 1 "#define A 0x2".toList, .create, .render 1].count .create < 2 ^ 32 - 1 ∧
    ∃ reply, (history (fun _ => true)
        [.create, .load 1 "#define A 0x2".toList, .create, .render 1])[3]? =
      some (.render 1, reply) ∧ reply.seen? = some "#define A 2".toList := by
  have hcount : [Call.create, .load 1 "#define A 0x2".toList, .create, .render 1].count .create <
      2 ^ 32 - 1 := by decide
  have hparse : Document.parse "#define A 0x2".toList = ⟨[.defineInteger ['A'] 2]⟩ := by
    have hlines : lines "#define A 0x2".toList = ["#define A 0x2".toList] := by
      simp [lines, firstLine, afterFirstLine, dropTerminator, isLineBreak]
    rw [Document.parse, hlines]
    decide
  have hanswer := (run_answers_history (fun _ => true) _ hcount).2.1
    (history (fun _ => true) [.create, .load 1 "#define A 0x2".toList, .create]) (.render 1) _ [] rfl
  refine ⟨hcount, _, rfl, ?_⟩
  refine (hanswer.1 "#define A 0x2".toList ⟨[], _, rfl, ?_, rfl⟩).trans ?_
  · decide
  · dsimp only
    rw [hparse]
    decide

end MaterialText.Session
