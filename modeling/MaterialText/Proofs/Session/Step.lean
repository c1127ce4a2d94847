import MaterialText.Session

namespace MaterialText.Session

variable {p : Id → Prop} {store a b : Store} {call : Call} {calls : List Call} {id : Id}

def Call.id? : Call → Option Id
  | .load id _ | .render id | .json id | .notes id | .free id => some id
  | .create | .reserve _ => none

def final (store : Store) (calls : List Call) : Store :=
  calls.foldl (fun store call => (perform store call).2) store

@[simp]
theorem final_append (store : Store) (before after : List Call) :
    final store (before ++ after) = final (final store before) after := List.foldl_append

@[simp]
theorem grants_perform (store : Store) (call : Call) :
    (perform store call).2.grants = store.grants := by
  cases call with
  | load id source =>
    rw [perform]
    split <;> rfl
  | _ => rfl

@[simp]
theorem grants_final (store : Store) (calls : List Call) :
    (final store calls).grants = store.grants := by
  induction calls generalizing store with
  | nil => rfl
  | cons call calls ih => exact (ih (perform store call).2).trans (grants_perform store call)

@[simp]
theorem run_append (store : Store) (before after : List Call) :
    run store (before ++ after) = run store before ++ run (final store before) after := by
  induction before generalizing store with
  | nil => rfl
  | cons call before ih => exact congrArg _ (ih (perform store call).2)

@[simp]
theorem length_run (store : Store) (calls : List Call) :
    (run store calls).length = calls.length := by
  induction calls generalizing store with
  | nil => rfl
  | cons call calls ih => exact congrArg Nat.succ (ih (perform store call).2)

theorem next_perform (store : Store) (call : Call) :
    (perform store call).2.next = if call = .create then store.next + 1 else store.next := by
  cases call with
  | load id source =>
    rw [perform]
    split <;> rfl
  | _ => rfl

theorem reply_load (store : Store) (id : Id) (source : Text) :
    (perform store (.load id source)).1 = .text (((store.document? id).map fun _ =>
      (Document.parse source).json .compact).getD "[]".toList) := by
  rw [perform, Store.isOpen]
  cases store.document? id <;> rfl

theorem document?_perform (store : Store) (call : Call) (id : Id) :
    (perform store call).2.document? id =
      match call with
      | .create => if id = store.next then some {} else store.document? id
      | .load named source =>
        if id = named ∧ store.isOpen named then some (Document.parse source)
        else store.document? id
      | .free named => if id = named then none else store.document? id
      | _ => store.document? id := by
  cases call with
  | create => exact Store.document?_create store id
  | load named source =>
    dsimp only
    rw [perform]
    by_cases h : store.isOpen named = true
    · rw [if_pos h, Store.document?_put]
      simp only [h, and_true]
    · rw [if_neg h, if_neg fun hnamed => h hnamed.2]
  | free named => exact Store.document?_close store named id
  | _ => rfl

/-- The same next number, the same allocator, and the same documents in the sessions of a kind. -/
structure Agree (p : Id → Prop) (a b : Store) : Prop where
  next : a.next = b.next
  grants : a.grants = b.grants
  document? : ∀ id, p id → a.document? id = b.document? id

theorem Agree.perform (h : Agree p a b) (call : Call) :
    Agree p (perform a call).2 (perform b call).2 := by
  refine ⟨by rw [next_perform, next_perform, h.next],
    by rw [grants_perform, grants_perform, h.grants], fun id hid => ?_⟩
  have hdocument := h.document? id hid
  rw [document?_perform, document?_perform]
  cases call with
  | create => rw [hdocument, h.next]
  | load named source =>
    by_cases hnamed : id = named
    · subst hnamed
      simp only [Store.isOpen, hdocument]
    · simp only [hnamed, false_and, if_false, hdocument]
  | free named => simp only [hdocument]
  | _ => exact hdocument

theorem Agree.reply (h : Agree p a b) (hcall : ∀ id, call.id? = some id → p id) :
    (Session.perform a call).1 = (Session.perform b call).1 := by
  cases call with
  | create => exact congrArg Reply.created h.next
  | load id source =>
    rw [reply_load, reply_load, h.document? id (hcall id rfl)]
  | render id => simp only [Session.perform, h.document? id (hcall id rfl)]
  | json id => simp only [Session.perform, h.document? id (hcall id rfl)]
  | notes id => simp only [Session.perform, h.document? id (hcall id rfl)]
  | free id => rfl
  | reserve size => simp only [Session.perform, h.grants]

theorem Agree.run (h : Agree p a b) {i : Nat} (hi : calls[i]? = some call)
    (hcall : ∀ id, call.id? = some id → p id) : (run a calls)[i]? = (run b calls)[i]? := by
  induction calls generalizing a b i with
  | nil => cases hi
  | cons first calls ih =>
    cases i with
    | zero =>
      obtain rfl : first = call := Option.some.inj hi
      exact congrArg some (h.reply hcall)
    | succ i => exact ih (h.perform first) hi

theorem Agree.run_eq (h : Agree (fun _ => True) a b) (calls : List Call) :
    Session.run a calls = Session.run b calls := by
  induction calls generalizing a b with
  | nil => rfl
  | cons call calls ih =>
    rw [Session.run, Session.run, h.reply fun _ _ => trivial, ih (h.perform call)]

theorem ne_create_of_id? (hid : call.id? = some id) : call ≠ .create := by
  rintro rfl
  cases hid

/-- A call leaves every session alone but the one that it names. -/
theorem agree_perform (store : Store) (hid : call.id? = some id) :
    Agree (· ≠ id) (perform store call).2 store := by
  refine ⟨by rw [next_perform, if_neg (ne_create_of_id? hid)], grants_perform store call,
    fun other hne => ?_⟩
  rw [document?_perform]
  cases call with
  | create => cases hid
  | load named source =>
    obtain rfl : named = id := Option.some.inj hid
    simp only [hne, false_and, if_false]
  | free named =>
    obtain rfl : named = id := Option.some.inj hid
    exact if_neg hne
  | _ => rfl

theorem agree_perform_of_closed (hid : call.id? = some id) (hclosed : store.document? id = none) :
    Agree (fun _ => True) (perform store call).2 store := by
  have h := agree_perform store hid
  refine ⟨h.next, h.grants, fun other _ => ?_⟩
  by_cases hother : other = id
  · subst hother
    rw [document?_perform]
    cases call with
    | create => cases hid
    | load named source =>
      obtain rfl : named = other := Option.some.inj hid
      simp [Store.isOpen, hclosed]
    | free named =>
      obtain rfl : named = other := Option.some.inj hid
      simp [hclosed]
    | _ => rfl
  · exact h.document? other hother

end MaterialText.Session
