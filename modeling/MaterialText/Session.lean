import MaterialText.Json.View
import MaterialText.Text.Encoding

namespace MaterialText.Session

abbrev Id := UInt32

/-- The greatest size that memory can be asked for, that of a signed word of 64 bits. -/
def maxSize : Nat := 0x7fffffffffffffff

/-- The open documents, and the number that the next session gets. Which sizes of memory are granted
is up to the allocator. -/
structure Store where
  next : Id := 1
  opened : List (Id × Document) := []
  grants : Nat → Bool := fun size => size < maxSize

namespace Store

def empty (grants : Nat → Bool) : Store := { grants }

def document? (store : Store) (id : Id) : Option Document := store.opened.lookup id

def isOpen (store : Store) (id : Id) : Bool := (store.document? id).isSome

def close (store : Store) (id : Id) : Store :=
  { store with opened := store.opened.filter fun entry => entry.1 != id }

def put (store : Store) (id : Id) (d : Document) : Store :=
  { store with opened := (id, d) :: (store.close id).opened }

def create (store : Store) : Store := { store.put store.next {} with next := store.next + 1 }

theorem lookup_cons_eq (id other : Id) (d : Document) (opened : List (Id × Document)) :
    ((id, d) :: opened).lookup other = if other = id then some d else opened.lookup other := by
  by_cases h : other = id
  · simp [h]
  · have hb : (other == id) = false := by simp [h]
    simp [List.lookup_cons, hb, h]

@[simp]
theorem document?_close (store : Store) (id other : Id) :
    (store.close id).document? other = if other = id then none else store.document? other := by
  obtain ⟨next, opened, grants⟩ := store
  unfold close document?
  dsimp only
  induction opened with
  | nil => simp
  | cons entry opened ih =>
    obtain ⟨key, d⟩ := entry
    rw [List.filter_cons, lookup_cons_eq]
    by_cases hk : key = id
    · have hb : (key != id) = false := by simp [hk]
      simp only [hb, Bool.false_eq_true, if_false, ih]
      by_cases ho : other = id
      · simp [ho]
      · simp [ho, hk]
    · have hb : (key != id) = true := by simp [hk]
      simp only [hb, if_true, lookup_cons_eq, ih]
      by_cases ho : other = key
      · simp [ho, hk]
      · simp [ho]

@[simp]
theorem document?_put (store : Store) (id other : Id) (d : Document) :
    (store.put id d).document? other = if other = id then some d else store.document? other := by
  have hc := document?_close store id other
  unfold put document? at hc ⊢
  rw [lookup_cons_eq, hc]
  by_cases h : other = id <;> simp [h]

@[simp]
theorem document?_create (store : Store) (id : Id) :
    store.create.document? id = if id = store.next then some {} else store.document? id :=
  document?_put store store.next id {}

end Store

inductive Call
  | create
  | load (id : Id) (source : Text)
  | render (id : Id)
  | json (id : Id)
  | notes (id : Id)
  | free (id : Id)
  | reserve (size : Nat)
deriving DecidableEq

/-- What a caller gets. A produced text is held whole. -/
inductive Reply
  | created (id : Id)
  | text (produced : Text)
  | freed
  | reserved (granted : Bool)
deriving DecidableEq

/-- The text that the caller of a terminated string sees. -/
def Reply.seen? : Reply → Option Text
  | .text produced => some (Text.terminated produced)
  | _ => none

/-- The reply to a call, and the sessions after it. Notes are made on the rendered document. -/
def perform (store : Store) : Call → Reply × Store
  | .create => (.created store.next, store.create)
  | .load id source =>
    if store.isOpen id then
      (.text ((Document.parse source).json .compact), store.put id (Document.parse source))
    else (.text "[]".toList, store)
  | .render id => (.text (((store.document? id).map fun d => d.render).getD []), store)
  | .json id =>
    (.text (((store.document? id).map fun d => d.json .compact).getD "[]".toList), store)
  | .notes id =>
    let notes? := (store.document? id).map fun d => Note.json (notesOn d.render)
    (.text (notes?.getD "[]".toList), store)
  | .free id => (.freed, store.close id)
  | .reserve size => (.reserved (size ≤ maxSize && store.grants size), store)

def run (store : Store) : List Call → List Reply
  | [] => []
  | call :: calls => (perform store call).1 :: run (perform store call).2 calls

end MaterialText.Session
