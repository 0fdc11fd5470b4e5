import Mathlib.Tactic.Common

/-!
# Python exceptions and JSON documents

The exceptions a pure Python function can raise, and the documents `json.loads` returns, with the
two ways of reading a key, `data[key]` and `data.get(key, default)`. JSON text is represented up to
the `json` library: a text is either the rendering of a document or one `json.loads` rejects.
-/

namespace PocketCash

/-- Exceptions, with their message or missing key. -/
inductive PyError
  | valueError (message : String)
  | keyError (key : String)
  | indexError
  | typeError
  | attributeError
  deriving DecidableEq, Repr

/-- What `json.loads` returns. A number that is not an integer is kept as its text. -/
inductive Json
  | null
  | bool (b : Bool)
  | int (n : Int)
  | float (text : String)
  | str (s : String)
  | list (items : List Json)
  | dict (fields : List (String × Json))

/-- A text handed to `json.loads`. -/
inductive JsonText
  | doc (j : Json)
  | malformed (text : String)

/-- `json.dumps`. -/
def Json.dumps (j : Json) : JsonText := .doc j

/-- `json.loads`; a malformed text raises `JSONDecodeError`, a `ValueError`. -/
def JsonText.loads : JsonText → Except PyError Json
  | .doc j => .ok j
  | .malformed _ => .error (.valueError "JSONDecodeError")

namespace Json

/-- `data[key]`. -/
def getItem (data : Json) (key : String) : Except PyError Json :=
  match data with
  | .dict fields =>
    match fields.lookup key with
    | some v => .ok v
    | none => .error (.keyError key)
  | _ => .error .typeError

/-- `data.get(key, default)`. -/
def get (data : Json) (key : String) (default : Json) : Except PyError Json :=
  match data with
  | .dict fields => .ok ((fields.lookup key).getD default)
  | _ => .error .attributeError

/-! The declared type of a field; a value of another type is a `TypeError`. -/

def asStr : Json → Except PyError String
  | .str s => .ok s
  | _ => .error .typeError

def asInt : Json → Except PyError Int
  | .int n => .ok n
  | _ => .error .typeError

def asOptStr : Json → Except PyError (Option String)
  | .null => .ok none
  | .str s => .ok (some s)
  | _ => .error .typeError

def asList : Json → Except PyError (List Json)
  | .list items => .ok items
  | _ => .error .typeError

def asBool : Json → Except PyError Bool
  | .bool b => .ok b
  | _ => .error .typeError

/-- `data.items()`. -/
def items : Json → Except PyError (List (String × Json))
  | .dict fields => .ok fields
  | _ => .error .attributeError

/-- `data == s` for a string `s`. -/
def isStr (data : Json) (s : String) : Bool :=
  match data with
  | .str t => t = s
  | _ => false

/-- A keyword argument of `f(**data)`; a missing one is a `TypeError`. -/
def kwarg (data : Json) (key : String) : Except PyError Json :=
  match data.getItem key with
  | .ok v => .ok v
  | .error _ => .error .typeError

/-- `f(**data)` for a function with the keyword parameters `names` raises `TypeError` on any other
key. -/
def checkKwargs (names : List String) : Json → Except PyError Unit
  | .dict fields =>
    if fields.all fun field => field.1 ∈ names then .ok () else .error .typeError
  | _ => .error .typeError

/-- A string or `None`. -/
def ofOptStr : Option String → Json
  | none => .null
  | some s => .str s

lemma ofOptStr_injective : Function.Injective ofOptStr := by
  rintro (_ | s) (_ | s') h <;> simp_all [ofOptStr]

end Json

/-! ### Sequences of calls that may raise -/

section

variable {ε α β : Type} {x : Except ε α} {f : α → Except ε β}

@[simp] lemma ok_bind (a : α) : (Except.ok a : Except ε α) >>= f = f a := rfl

@[simp] lemma error_bind (e : ε) : (Except.error e : Except ε α) >>= f = .error e := rfl

@[simp] lemma pure_eq_ok (a : α) : (pure a : Except ε α) = .ok a := rfl

@[simp] lemma throw_eq_error (e : ε) : (throw e : Except ε α) = .error e := rfl

/-- A sequence of two computations returns exactly if both do. -/
lemma bind_eq_ok_iff {b : β} : x >>= f = .ok b ↔ ∃ a, x = .ok a ∧ f a = .ok b := by
  cases x <;> simp

/-- Reading all items of a list returns the list of what is read, if every item is read. -/
lemma mapM_map_eq_ok {γ : Type} {read : β → Except ε γ} {write : α → β} {value : α → γ} {l : List α}
    (h : ∀ a ∈ l, read (write a) = .ok (value a)) : (l.map write).mapM read = .ok (l.map value) := by
  induction l with
  | nil => rfl
  | cons a l ih =>
    obtain ⟨ha, hl⟩ := List.forall_mem_cons.mp h
    rw [List.map_cons, List.mapM_cons, ha, ih hl]
    rfl

/-- A list that was written item by item is read back. -/
lemma mapM_map_eq_self {read : β → Except ε α} {write : α → β} {l : List α}
    (h : ∀ a ∈ l, read (write a) = .ok a) : (l.map write).mapM read = .ok l := by
  rw [mapM_map_eq_ok h, List.map_id']

lemma mapM_asStr (strings : List String) : (strings.map Json.str).mapM Json.asStr = .ok strings :=
  mapM_map_eq_self fun _ _ => rfl

/-- `if p: raise e`, followed by `k`. -/
lemma guard_eq_ok_iff {p : Prop} [Decidable p] {e : ε} {k : Unit → Except ε β} {b : β} :
    (if p then (throw e : Except ε Unit) >>= k else k ()) = .ok b ↔ ¬ p ∧ k () = .ok b := by
  by_cases hp : p <;> simp [hp]

/-- A computation that returns something else than the first branch of an `if` took the other
branch. -/
lemma of_ite_eq_ok {p : Prop} [Decidable p] {a b : α} {k : Except ε α} (hne : a ≠ b)
    (h : (if p then Except.ok a else k) = .ok b) : ¬ p ∧ k = .ok b := by
  by_cases hp : p
  · rw [if_pos hp] at h
    exact absurd (Except.ok.inj h) hne
  · exact ⟨hp, by rwa [if_neg hp] at h⟩

/-- A check that answers `False` was passed if the answer is `True`. -/
lemma reject_eq_ok_iff {p : Prop} [Decidable p] {a b : α} {k : Except ε (Bool × α)} :
    (if p then .ok (false, a) else k) = .ok (true, b) ↔ ¬ p ∧ k = .ok (true, b) := by
  by_cases hp : p <;> simp [hp]

end

lemma eq_mk_ok {σ ε α : Type*} {r : σ × Except ε α} {a : α} (h : r.2 = .ok a) : r = (r.1, .ok a) := by
  rw [← h]

/-- A call that changes `σ` and does not raise returns some value. -/
lemma exists_eq_ok {σ ε α : Type*} {r : σ × Except ε α} (h : r.2.isOk = true) :
    ∃ a, r = (r.1, .ok a) := by
  obtain ⟨s, e | a⟩ := r
  · cases h
  · exact ⟨a, rfl⟩

end PocketCash
