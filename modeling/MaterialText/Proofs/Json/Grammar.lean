import MaterialText.Proofs.Single.LiteralGrammar

namespace MaterialText.Json
open FloatLiteral Numeral

/-- Numbers keep their numeral beside its exact value, and objects the order of their members. -/
inductive Value
  | null
  | boolean (b : Bool)
  | number (numeral : Text) (value : ℚ)
  | string (s : Text)
  | array (items : List Value)
  | object (members : List (Text × Value))

def isSpace (c : Char) : Bool := c == ' ' || c == '\t' || c == '\n' || c == '\r'

def Space (w : Text) : Prop := ∀ c ∈ w, isSpace c = true

inductive Minus : Text → Bool → Prop
  | absent : Minus [] false
  | present : Minus ['-'] true

/-- The digits before the point: a zero stands alone. -/
inductive Whole : Text → Prop
  | zero : Whole ['0']
  | digits {d : Char} {ds : Text} (hd : '1' ≤ d ∧ d ≤ '9') (h : Digits ds) : Whole (d :: ds)

inductive Fraction : Text → Text → Prop
  | absent : Fraction [] []
  | present {digits : Text} (hne : digits ≠ []) (h : Digits digits) :
      Fraction ('.' :: digits) digits

inductive Number : Text → ℚ → Prop
  | parts {sg whole pt fraction ex : Text} {negative : Bool} {e : Int} (hsign : Minus sg negative)
      (hwhole : Whole whole) (hpoint : Fraction pt fraction) (hexponent : Exponent ex e) :
      Number (sg ++ (whole ++ (pt ++ ex)))
        (withSign negative (magnitude ⟨negative, whole, fraction, e⟩))

def letters : List (Char × Char) :=
  [('"', '"'), ('\\', '\\'), ('/', '/'), ('b', '\x08'), ('f', '\x0c'), ('n', '\n'), ('r', '\r'),
    ('t', '\t')]

inductive Code : Text → Nat → Prop
  | digits {ds : Text} (hlen : ds.length = 4) (h : ∀ c ∈ ds, IsHexDigit c) :
      Code ds (Nat.ofDigits 16 (placeValues ds))

def IsHighHalf (n : Nat) : Prop := 0xd800 ≤ n ∧ n < 0xdc00

def IsLowHalf (n : Nat) : Prop := 0xdc00 ≤ n ∧ n < 0xe000

instance (n : Nat) : Decidable (IsHighHalf n) := inferInstanceAs (Decidable (_ ∧ _))

instance (n : Nat) : Decidable (IsLowHalf n) := inferInstanceAs (Decidable (_ ∧ _))

/-- The character beyond the first 65536 that is given by two halves. -/
def ofHalves (high low : Nat) : Char :=
  Char.ofNat (0x10000 + (high - 0xd800) * 0x400 + (low - 0xdc00))

/-- One character between quotes: itself, by a letter, by its code, or by the two halves of it. -/
inductive Character : Text → Char → Prop
  | plain {c : Char} (hc : 0x20 ≤ c.toNat) (hq : c ≠ '"') (hb : c ≠ '\\') : Character [c] c
  | letter {l c : Char} (h : (l, c) ∈ letters) : Character ['\\', l] c
  | code {ds : Text} {n : Nat} (h : Code ds n) (hhigh : ¬IsHighHalf n) (hlow : ¬IsLowHalf n) :
      Character ('\\' :: 'u' :: ds) (Char.ofNat n)
  | halves {ds es : Text} {m n : Nat} (hm : Code ds m) (hhigh : IsHighHalf m) (hn : Code es n)
      (hlow : IsLowHalf n) : Character ('\\' :: 'u' :: (ds ++ '\\' :: 'u' :: es)) (ofHalves m n)

inductive Characters : Text → Text → Prop
  | nil : Characters [] []
  | cons {u t s : Text} {c : Char} (hc : Character u c) (h : Characters t s) :
      Characters (u ++ t) (c :: s)

def Quoted (t s : Text) : Prop := ∃ body, Characters body s ∧ t = '"' :: (body ++ ['"'])

/-- At least one text of a kind, with commas between them and white space around each. -/
inductive Separated {α : Type} (P : Text → α → Prop) : Text → List α → Prop
  | one {w₀ t w₁ : Text} {a : α} (h₀ : Space w₀) (h : P t a) (h₁ : Space w₁) :
      Separated P (w₀ ++ (t ++ w₁)) [a]
  | more {w₀ t w₁ u : Text} {a : α} {as : List α} (h₀ : Space w₀) (h : P t a) (h₁ : Space w₁)
      (hrest : Separated P u as) : Separated P (w₀ ++ (t ++ (w₁ ++ ',' :: u))) (a :: as)

inductive Member (P : Text → Value → Prop) : Text → Text × Value → Prop
  | pair {t key w₀ w₁ u : Text} {v : Value} (hkey : Quoted t key) (h₀ : Space w₀)
      (h₁ : Space w₁) (h : P u v) : Member P (t ++ (w₀ ++ ':' :: (w₁ ++ u))) (key, v)

/-- A value without the white space around it. -/
inductive Derives : Text → Value → Prop
  | null : Derives "null".toList .null
  | yes : Derives "true".toList (.boolean true)
  | no : Derives "false".toList (.boolean false)
  | number {t : Text} {q : ℚ} (h : Number t q) : Derives t (.number t q)
  | string {t s : Text} (h : Quoted t s) : Derives t (.string s)
  | emptyArray {w : Text} (hw : Space w) : Derives ('[' :: (w ++ [']'])) (.array [])
  | array {t : Text} {vs : List Value} (h : Separated Derives t vs) :
      Derives ('[' :: (t ++ [']'])) (.array vs)
  | emptyObject {w : Text} (hw : Space w) : Derives ('\x7b' :: (w ++ ['\x7d'])) (.object [])
  | object {t : Text} {ms : List (Text × Value)} (h : Separated (Member Derives) t ms) :
      Derives ('\x7b' :: (t ++ ['\x7d'])) (.object ms)

def Denotes (t : Text) (v : Value) : Prop :=
  ∃ w₀ u w₁, Space w₀ ∧ Derives u v ∧ Space w₁ ∧ t = w₀ ++ (u ++ w₁)

/-- Neither white space nor a closing bracket, so that a value can begin with it. -/
def opens (c : Char) : Bool := !isSpace c && c != ']' && c != '\x7d'

variable {α : Type} {P Q : Text → α → Prop} {t s w : Text} {as : List α} {v : Value} {q : ℚ}
  {m : Text × Value} {c : Char} {n : Nat}

theorem opens_of_isDigit (h : c.isDigit = true) : opens c = true := by
  have hne (d : Char) (hd : d.isDigit = false) : c ≠ d := by
    rintro rfl
    rw [h] at hd
    cases hd
  simp [opens, isSpace, hne]

theorem Whole.exists_cons (h : Whole t) : ∃ d ds, t = d :: ds ∧ d.isDigit = true ∧ Digits ds := by
  cases h with
  | zero => exact ⟨'0', [], rfl, rfl, List.forall_mem_nil _⟩
  | digits hd h => exact ⟨_, _, rfl, (nonzero_digit_iff.mp hd).1, h⟩

theorem Whole.isDigits (h : Whole t) : Digits t := by
  obtain ⟨d, ds, rfl, hd, hds⟩ := h.exists_cons
  exact List.forall_mem_cons.mpr ⟨hd, hds⟩

theorem Number.exists_cons (h : Number t q) :
    ∃ c u, t = c :: u ∧ (c = '-' ∨ c.isDigit = true) := by
  cases h with
  | parts hsign hwhole =>
    cases hsign with
    | present => exact ⟨'-', _, rfl, .inl rfl⟩
    | absent =>
      obtain ⟨d, ds, rfl, hd, -⟩ := hwhole.exists_cons
      exact ⟨d, _, rfl, .inr hd⟩

theorem Quoted.exists_cons (h : Quoted t s) : ∃ u, t = '"' :: u := by
  obtain ⟨body, -, rfl⟩ := h
  exact ⟨_, rfl⟩

theorem Derives.exists_cons (h : Derives t v) : ∃ c u, t = c :: u ∧ opens c = true := by
  cases h with
  | number h =>
    obtain ⟨c, u, rfl, rfl | hc⟩ := h.exists_cons
    · exact ⟨_, _, rfl, rfl⟩
    · exact ⟨_, _, rfl, opens_of_isDigit hc⟩
  | string h =>
    obtain ⟨u, rfl⟩ := h.exists_cons
    exact ⟨_, _, rfl, rfl⟩
  | _ => exact ⟨_, _, rfl, rfl⟩

theorem Member.exists_cons {P : Text → Value → Prop} (h : Member P t m) :
    ∃ c u, t = c :: u ∧ opens c = true := by
  cases h with
  | pair hkey =>
    obtain ⟨u, rfl⟩ := hkey.exists_cons
    exact ⟨_, _, rfl, rfl⟩

theorem Separated.imp (h : Separated P t as) (hpq : ∀ u a, u.length ≤ t.length → P u a → Q u a) :
    Separated Q t as := by
  induction h with
  | one h₀ h h₁ =>
    refine .one h₀ (hpq _ _ ?_ h) h₁
    simp only [List.length_append]
    omega
  | more h₀ h h₁ _ ih =>
    refine .more h₀ (hpq _ _ ?_ h) h₁ (ih fun u a hu => hpq u a (hu.trans ?_))
    · simp only [List.length_append]
      omega
    · simp only [List.length_append, List.length_cons]
      omega

def isPrintable (c : Char) : Bool := isSpace c || 0x20 ≤ c.toNat

def Printable (t : Text) : Prop := ∀ c ∈ t, isPrintable c = true

instance (t : Text) : Decidable (Printable t) := List.decidableBAll _ t

@[simp] theorem printable_append : Printable (s ++ t) ↔ Printable s ∧ Printable t :=
  List.forall_mem_append

@[simp] theorem printable_cons : Printable (c :: t) ↔ isPrintable c = true ∧ Printable t :=
  List.forall_mem_cons

theorem isPrintable_of_le (h : 0x20 ≤ c.toNat) : isPrintable c = true := by simp [isPrintable, h]

theorem Space.printable (h : Space w) : Printable w := fun c hc => by simp [isPrintable, h c hc]

theorem printable_of_visible (h : Visible t) : Printable t :=
  fun c hc => isPrintable_of_le (h c hc).le

theorem Number.printable (h : Number t q) : Printable t := by
  obtain ⟨hsign, hwhole, hpoint, hexponent⟩ := h
  have hdigits {ds : Text} (hds : Digits ds) : Printable ds :=
    printable_of_visible (visible_of_forall_isDigit hds)
  simp only [printable_append]
  refine ⟨?_, hdigits hwhole.isDigits, ?_, printable_of_visible hexponent.visible⟩
  · cases hsign <;> decide
  · cases hpoint with
    | absent => decide
    | present _ h => exact printable_cons.mpr ⟨by decide, hdigits h⟩

theorem Code.printable (h : Code t n) : Printable t := by
  obtain ⟨-, hdigits⟩ := h
  intro c hc
  apply isPrintable_of_le
  have ha : 'a'.toNat = 97 := rfl
  have hA : 'A'.toNat = 65 := rfl
  rcases hdigits c hc with h | ⟨h, -⟩ | ⟨h, -⟩
  · have hdigit := isDigit_iff.mp h
    omega
  · have hle := le_iff_toNat_le.mp h
    omega
  · have hle := le_iff_toNat_le.mp h
    omega

theorem Character.printable (h : Character t c) : Printable t := by
  cases h with
  | plain hc => exact printable_cons.mpr ⟨isPrintable_of_le hc, List.forall_mem_nil _⟩
  | letter h =>
    have hletters : (letters.all fun p => decide (Printable ['\\', p.1])) = true := by decide
    exact of_decide_eq_true (List.all_eq_true.mp hletters _ h)
  | code h =>
    have hu : Printable ['\\', 'u'] := by decide
    exact printable_append.mpr ⟨hu, h.printable⟩
  | halves hm _ hn =>
    have hu : Printable ['\\', 'u'] := by decide
    have hsecond := printable_append.mpr ⟨hu, hn.printable⟩
    exact printable_append.mpr ⟨hu, printable_append.mpr ⟨hm.printable, hsecond⟩⟩

theorem Quoted.printable (h : Quoted t s) : Printable t := by
  obtain ⟨body, hbody, rfl⟩ := h
  have hprintable : Printable body := by
    induction hbody with
    | nil => decide
    | cons hc _ ih => exact printable_append.mpr ⟨hc.printable, ih⟩
  simpa using ⟨by decide, hprintable, by decide⟩

theorem Separated.printable (h : Separated P t as)
    (hp : ∀ u a, u.length ≤ t.length → P u a → Printable u) : Printable t := by
  induction h with
  | one h₀ h h₁ =>
    simp only [List.length_append] at hp
    have hitem := hp _ _ (by omega) h
    exact printable_append.mpr ⟨h₀.printable, printable_append.mpr ⟨hitem, h₁.printable⟩⟩
  | more h₀ h h₁ _ ih =>
    simp only [List.length_append, List.length_cons] at hp
    have hitem := hp _ _ (by omega) h
    have hrest := ih fun u a hu => hp u a (by omega)
    simpa using ⟨h₀.printable, hitem, h₁.printable, by decide, hrest⟩

theorem Derives.printable (h : Derives t v) : Printable t := by
  -- By induction on the length, as every item is shorter than what holds it.
  induction hn : t.length using Nat.strong_induction_on generalizing t v with
  | h n ih =>
    subst hn
    cases h with
    | null => decide
    | yes => decide
    | no => decide
    | number h => exact h.printable
    | string h => exact h.printable
    | emptyArray hw => simpa using ⟨by decide, hw.printable, by decide⟩
    | emptyObject hw => simpa using ⟨by decide, hw.printable, by decide⟩
    | array h =>
      simp only [List.length_cons, List.length_append] at ih
      have hitems := h.printable fun u a hu ha => ih _ (by omega) ha rfl
      simpa using ⟨by decide, hitems, by decide⟩
    | object h =>
      simp only [List.length_cons, List.length_append] at ih
      have hmembers := h.printable fun u a hu ha => by
        cases ha with
        | pair hkey h₀ h₁ ha =>
          simp only [List.length_append, List.length_cons] at hu
          have hvalue := ih _ (by omega) ha rfl
          simpa using ⟨hkey.printable, h₀.printable, by decide, h₁.printable, hvalue⟩
      simpa using ⟨by decide, hmembers, by decide⟩

/-- A JSON text has no control character but white space. -/
theorem Denotes.printable (h : Denotes t v) : Printable t := by
  obtain ⟨w₀, u, w₁, h₀, hu, h₁, rfl⟩ := h
  simpa using ⟨h₀.printable, hu.printable, h₁.printable⟩

end MaterialText.Json
