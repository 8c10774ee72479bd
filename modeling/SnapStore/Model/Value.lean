import SnapStore.Bytes

namespace SnapStore

/-!
# Model values

A model is whatever a host keeps in the cache.  Its data is a tree of the shapes below, which are
those that a self-contained binary form can write: numbers of fixed width, text, options, sequences,
maps, tuples and tagged unions.  A record is a tuple of its fields in order.

* `Value` is the tree.
* `Value.compare` is a total order on values; a map lists its entries by ascending key.
* `Value.insertEntry` puts an entry into a map, where the last entry of a key wins.
-/

/-- The widths of fixed-width numbers. -/
inductive Width
  | w8 | w16 | w32 | w64 | w128
  deriving DecidableEq, Repr

/-- The number of bits of a width. -/
def Width.bits : Width → Nat
  | .w8 => 8
  | .w16 => 16
  | .w32 => 32
  | .w64 => 64
  | .w128 => 128

/-- A model value. -/
inductive Value
  | unit
  | bool (b : Bool)
  /-- An unsigned number. -/
  | nat (w : Width) (n : Nat)
  /-- A signed number. -/
  | int (w : Width) (i : Int)
  /-- A single-precision number, by its bits. -/
  | float32 (bits : UInt32)
  /-- A double-precision number, by its bits. -/
  | float64 (bits : UInt64)
  | char (c : Char)
  | string (s : String)
  | none
  | some (v : Value)
  /-- A sequence whose length is known before its items. -/
  | seq (items : List Value)
  /-- A sequence whose items come one by one, so that no length can be written in front of them. -/
  | stream (items : List Value)
  /-- A map, by its entries. -/
  | map (entries : List (Value × Value))
  /-- A tuple, or a record by its fields in order. -/
  | tuple (fields : List Value)
  /-- One alternative of a tagged union, by its position, with what it carries. -/
  | variant (index : Nat) (payload : Value)
  deriving BEq, Repr, Inhabited

namespace Value

mutual

/-- A total order: by shape first, then by contents from left to right. -/
def compare : Value → Value → Ordering
  | .bool a, .bool b => Ord.compare a b
  | .nat _ a, .nat _ b => Ord.compare a b
  | .int _ a, .int _ b => Ord.compare a b
  | .float32 a, .float32 b => Ord.compare a b
  | .float64 a, .float64 b => Ord.compare a b
  | .char a, .char b => Ord.compare a b
  | .string a, .string b => Ord.compare a b
  | .some a, .some b => a.compare b
  | .seq a, .seq b => compareAll a b
  | .stream a, .stream b => compareAll a b
  | .map a, .map b => compareEntries a b
  | .tuple a, .tuple b => compareAll a b
  | .variant i a, .variant j b => (Ord.compare i j).then (a.compare b)
  | a, b => Ord.compare a.ctorIdx b.ctorIdx
termination_by structural a => a

/-- Lists are ordered by their first difference; a list that ends first comes first. -/
def compareAll : List Value → List Value → Ordering
  | [], [] => .eq
  | [], _ :: _ => .lt
  | _ :: _, [] => .gt
  | a :: as, b :: bs => (a.compare b).then (compareAll as bs)
termination_by structural as => as

/-- The same order on lists of entries. -/
def compareEntries : List (Value × Value) → List (Value × Value) → Ordering
  | [], [] => .eq
  | [], _ :: _ => .lt
  | _ :: _, [] => .gt
  | a :: as, b :: bs => (compareEntry a b).then (compareEntries as bs)
termination_by structural as => as

/-- Entries are ordered by key, then by value. -/
def compareEntry : Value × Value → Value × Value → Ordering
  | (k, v), (l, w) => (k.compare l).then (v.compare w)
termination_by structural a => a

end

/-- Puts an entry in its place, replacing the value of an equal key. -/
def insertEntry (key value : Value) : List (Value × Value) → List (Value × Value)
  | [] => [(key, value)]
  | (k, v) :: es =>
    match key.compare k with
    | .lt => (key, value) :: (k, v) :: es
    | .eq => (k, value) :: es
    | .gt => (k, v) :: insertEntry key value es

/-- The map that results from inserting entries one after another. -/
def mapOf (entries : List (Value × Value)) : Value :=
  .map (entries.foldl (fun es (k, v) => insertEntry k v es) [])

end Value

end SnapStore
