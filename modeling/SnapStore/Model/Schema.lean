import SnapStore.Model.Value

namespace SnapStore

/-!
# Model schemas

A schema says which values a model type has.  Recursive types refer to definitions by position.

* `Schema` is the shape of one type, `Layout` a shape with the definitions that it refers to.
* `Schema.Admits defs s v` says that `v` is a value of the type `s`: numbers are within their width,
  maps list their keys in ascending order without repetition, and tagged values name an alternative.
-/

/-- The shape of a model type. -/
inductive Schema
  | unit
  | bool
  | nat (w : Width)
  | int (w : Width)
  | float32
  | float64
  | char
  | string
  | option (item : Schema)
  | seq (item : Schema)
  | stream (item : Schema)
  | map (key value : Schema)
  | tuple (fields : List Schema)
  /-- A tagged union, by what each alternative carries. -/
  | union (alternatives : List Schema)
  /-- The definition at a position, so that a type can occur inside itself. -/
  | ref (index : Nat)
  deriving Repr, Inhabited

/-- A model type: its shape, and the definitions that shapes refer to. -/
structure Layout where
  /-- The shape of the whole model. -/
  root : Schema
  /-- The definitions that `Schema.ref` picks from. -/
  defs : List Schema := []
  deriving Repr, Inhabited

/-- The values of a shape. -/
inductive Schema.Admits (defs : List Schema) : Schema → Value → Prop
  | unit : Admits defs .unit .unit
  | bool {b : Bool} : Admits defs .bool (.bool b)
  | nat {w : Width} {n : Nat} (bound : n < Nat.pow 2 w.bits) : Admits defs (.nat w) (.nat w n)
  | int {w : Width} {i : Int} (lower : -(Nat.pow 2 (w.bits - 1) : Int) ≤ i)
      (upper : i < (Nat.pow 2 (w.bits - 1) : Int)) : Admits defs (.int w) (.int w i)
  | float32 {bits : UInt32} : Admits defs .float32 (.float32 bits)
  | float64 {bits : UInt64} : Admits defs .float64 (.float64 bits)
  | char {c : Char} : Admits defs .char (.char c)
  | string {s : String} (bound : s.utf8ByteSize < Nat.pow 2 64) : Admits defs .string (.string s)
  | none {s : Schema} : Admits defs (.option s) .none
  | some {s : Schema} {v : Value} (item : Admits defs s v) : Admits defs (.option s) (.some v)
  | seq {s : Schema} {vs : List Value} (bound : vs.length < Nat.pow 2 64)
      (items : ∀ v ∈ vs, Admits defs s v) : Admits defs (.seq s) (.seq vs)
  | stream {s : Schema} {vs : List Value} (items : ∀ v ∈ vs, Admits defs s v) :
      Admits defs (.stream s) (.stream vs)
  | map {k s : Schema} {es : List (Value × Value)} (bound : es.length < Nat.pow 2 64)
      (keys : ∀ e ∈ es, Admits defs k e.1) (values : ∀ e ∈ es, Admits defs s e.2)
      (ascending : es.Pairwise fun a b => a.1.compare b.1 = .lt) : Admits defs (.map k s) (.map es)
  | emptyTuple : Admits defs (.tuple []) (.tuple [])
  | consTuple {s : Schema} {ss : List Schema} {v : Value} {vs : List Value}
      (head : Admits defs s v) (tail : Admits defs (.tuple ss) (.tuple vs)) :
      Admits defs (.tuple (s :: ss)) (.tuple (v :: vs))
  | variant {ss : List Schema} {i : Nat} {s : Schema} {v : Value} (bound : i < Nat.pow 2 32)
      (at_index : ss[i]? = some s) (payload : Admits defs s v) :
      Admits defs (.union ss) (.variant i v)
  | ref {i : Nat} {s : Schema} {v : Value} (at_index : defs[i]? = some s)
      (target : Admits defs s v) : Admits defs (.ref i) v

/-- The values of a model type. -/
def Layout.Admits (l : Layout) (v : Value) : Prop := l.root.Admits l.defs v

end SnapStore
