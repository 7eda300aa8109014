/-!
Association lists kept in increasing key order with one entry per key. Objects, session heads and
failed batches are tables, so their order never depends on how they were filled.
-/

namespace AuditTrail

abbrev Table (α : Type) := List (String × α)

namespace Table

variable {α β : Type}

def find? (key : String) : Table α → Option α
  | [] => none
  | (k, v) :: rest => if key = k then some v else find? key rest

def contains (key : String) (table : Table α) : Bool :=
  (table.find? key).isSome

def insert (key : String) (value : α) : Table α → Table α
  | [] => [(key, value)]
  | (k, v) :: rest =>
    if key = k then (key, value) :: rest
    else if key < k then (key, value) :: (k, v) :: rest
    else (k, v) :: insert key value rest

def erase (key : String) : Table α → Table α
  | [] => []
  | (k, v) :: rest => if key = k then rest else (k, v) :: erase key rest

def ofList (entries : List (String × α)) : Table α :=
  entries.foldl (fun table entry => insert entry.1 entry.2 table) []

def keys (table : Table α) : List String :=
  List.map Prod.fst table

def values (table : Table α) : List α :=
  List.map Prod.snd table

def Ordered (table : Table α) : Prop :=
  table.Pairwise fun a b => a.1 < b.1

end Table

def sortedDistinct (names : List String) : List String :=
  (Table.ofList (names.map fun name => (name, ()))).keys

end AuditTrail
