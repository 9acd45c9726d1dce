import SyncServer.Sessions.Context

/-! # The context table of any size

A table is an array of lists, and a key is in the list of its hash. After any insertions a list has
the inserted pairs of its hash, the last one first. A search that does not find its key comes to an
end only in an empty list.
-/

namespace SyncServer

open CText

/-- `HashTable`: as many lists as its size says, of keys and values. -/
structure ContextHashTable (V : Type*) where
  size : ℕ
  array : List (List (Bytes × V))
  deriving DecidableEq, Repr

namespace ContextHashTable

variable {V : Type*}

/-! ## The functions

What reads beyond the array or through a null pointer is undefined.
-/

/-- The loop of `LinkedList_get`, which goes on while the whole list is not empty. -/
def linkedListGetFrom (list : List (Bytes × V)) (key : Bytes) :
    List (Bytes × V) → Option (Option V)
  | [] => if list = [] then some none else none
  | node :: next =>
      if list = [] then some none
      else if node.1 = key then some (some node.2)
      else linkedListGetFrom list key next

/-- `LinkedList_get`. -/
def linkedListGet (list : List (Bytes × V)) (key : Bytes) : Option (Option V) :=
  linkedListGetFrom list key list

def create (size : ℕ) : ContextHashTable V := ⟨size, List.replicate size []⟩

/-- `HashTable_insert`, with `LinkedList_push` on the list of the key. The value of the new head
is returned. -/
def insert (table : ContextHashTable V) (key : Bytes) (value : V) :
    Option (ContextHashTable V × V) :=
  (table.array[keyHash key table.size]?).map fun list =>
    ({ table with array := table.array.set (keyHash key table.size) ((key, value) :: list) }, value)

/-- `HashTable_search`; what it finds is `none` for a null pointer. -/
def search (table : ContextHashTable V) (key : Bytes) : Option (Option V) :=
  (table.array[keyHash key table.size]?).bind fun list => linkedListGet list key

/-- The insertions one after the other. -/
def insertAll : ContextHashTable V → List (Bytes × V) → Option (ContextHashTable V)
  | table, [] => some table
  | table, node :: nodes => (table.insert node.1 node.2).bind fun result => insertAll result.1 nodes

/-- The value of the last insertion with the key. -/
def lastInserted (nodes : List (Bytes × V)) (key : Bytes) : Option V :=
  (nodes.reverse.find? (·.1 = key)).map Prod.snd

/-! ## The hash -/

/-- The wrap-around of the sum does not matter for the range: the last operation is `% modulo`. -/
theorem keyHash_lt {modulo : ℕ} (h : 0 < modulo) (key : Bytes) : keyHash key modulo < modulo := by
  rcases List.eq_nil_or_concat key with rfl | ⟨front, c, rfl⟩
  · exact h
  · rw [keyHash, List.concat_eq_append, List.foldl_append]
    exact Nat.mod_lt _ h

/-! ## The lists -/

/-- The nodes that were inserted into a list, the last one first. -/
def bucket (size : ℕ) (nodes : List (Bytes × V)) (index : ℕ) : List (Bytes × V) :=
  nodes.reverse.filter (keyHash ·.1 size = index)

/-- What the insertions have made of the table. -/
structure Holds (table : ContextHashTable V) (size : ℕ) (nodes : List (Bytes × V)) : Prop where
  size_eq : table.size = size
  length_array : table.array.length = size
  bucket_eq : ∀ index (h : index < table.array.length), table.array[index] = bucket size nodes index

theorem holds_create (size : ℕ) : (create size : ContextHashTable V).Holds size [] where
  size_eq := rfl
  length_array := List.length_replicate
  bucket_eq index h := by simp [create, bucket]

theorem insert_spec {table : ContextHashTable V} {size : ℕ} {nodes : List (Bytes × V)}
    (h : table.Holds size nodes) (hsize : 0 < size) (key : Bytes) (value : V) :
    ∃ table', table.insert key value = some (table', value) ∧
      table'.Holds size (nodes ++ [(key, value)]) := by
  obtain ⟨rfl, hlength, hbucket⟩ := h
  have hindex : keyHash key table.size < table.array.length := by
    rw [hlength]
    exact keyHash_lt hsize key
  refine ⟨⟨table.size, table.array.set (keyHash key table.size)
    ((key, value) :: table.array[keyHash key table.size])⟩, ?_, rfl, by simpa using hlength, ?_⟩
  · rw [insert, List.getElem?_eq_getElem hindex]
    rfl
  intro index h
  rw [List.length_set] at h
  by_cases hi : keyHash key table.size = index
  · subst hi
    simp [hbucket _ h, bucket]
  · simp [hbucket _ h, hi, bucket]

theorem insertAll_spec {table : ContextHashTable V} {size : ℕ} {before : List (Bytes × V)}
    (h : table.Holds size before) (hsize : 0 < size) (nodes : List (Bytes × V)) :
    ∃ table', table.insertAll nodes = some table' ∧ table'.Holds size (before ++ nodes) := by
  induction nodes generalizing table before with
  | nil => exact ⟨table, rfl, by simpa using h⟩
  | cons node nodes ih =>
      obtain ⟨table₁, hinsert, hholds₁⟩ := insert_spec h hsize node.1 node.2
      obtain ⟨table', hall, hholds⟩ := ih hholds₁
      exact ⟨table', by rw [insertAll, hinsert]; exact hall, by simpa using hholds⟩

/-! ## The search -/

theorem linkedListGetFrom_eq {list : List (Bytes × V)} (hne : list ≠ []) (key : Bytes)
    (rest : List (Bytes × V)) :
    linkedListGetFrom list key rest = (rest.find? (·.1 = key)).map fun node => some node.2 := by
  induction rest with
  | nil => simp [linkedListGetFrom, hne]
  | cons node rest ih =>
      by_cases hkey : node.1 = key
      · simp [linkedListGetFrom, hne, hkey]
      · simp [linkedListGetFrom, hne, hkey, ih]

/-- The search of a list: what it finds, or its end where the list is empty. -/
theorem linkedListGet_eq (list : List (Bytes × V)) (key : Bytes) :
    linkedListGet list key =
      if list = [] then some none else (list.find? (·.1 = key)).map fun node => some node.2 := by
  by_cases hnil : list = []
  · simp [linkedListGet, linkedListGetFrom, hnil]
  · rw [if_neg hnil, linkedListGet, linkedListGetFrom_eq hnil]

/-- A key is found in the list of its hash exactly when it is found anywhere. -/
theorem find?_bucket (size : ℕ) (nodes : List (Bytes × V)) (key : Bytes) :
    ((bucket size nodes (keyHash key size)).find? (·.1 = key)).map Prod.snd =
      lastInserted nodes key := by
  rw [bucket, lastInserted, List.find?_filter]
  congr 2
  funext node
  by_cases hkey : node.1 = key
  · simp [hkey]
  · simp [hkey]

/-- The search after some insertions. -/
theorem search_of_holds {table : ContextHashTable V} {size : ℕ} {nodes : List (Bytes × V)}
    (h : table.Holds size nodes) (hsize : 0 < size) (key : Bytes) :
    table.search key = linkedListGet (bucket size nodes (keyHash key size)) key := by
  obtain ⟨rfl, hlength, hbucket⟩ := h
  have hindex : keyHash key table.size < table.array.length := by
    rw [hlength]
    exact keyHash_lt hsize key
  rw [search, List.getElem?_eq_getElem hindex, Option.bind_some, hbucket _ hindex]

theorem bucket_eq_nil {size : ℕ} {nodes : List (Bytes × V)} {index : ℕ} :
    bucket size nodes index = [] ↔ ∀ node ∈ nodes, keyHash node.1 size ≠ index := by
  simp [bucket, List.filter_eq_nil_iff]

theorem lastInserted_isSome {nodes : List (Bytes × V)} {key : Bytes} :
    (lastInserted nodes key).isSome = true ↔ ∃ value, (key, value) ∈ nodes := by
  simp [lastInserted, List.find?_isSome]

/-- A search finds the value of the last insertion with its key; without one it returns a null
pointer when no key with its hash was inserted, and it is undefined otherwise. -/
theorem search_eq_lastInserted_iff {size : ℕ} (hsize : 0 < size) (nodes : List (Bytes × V))
    (key : Bytes) :
    ∃ table, (create size).insertAll nodes = some table ∧
      (table.search key = some (lastInserted nodes key) ↔
        (∃ value, (key, value) ∈ nodes) ∨
          ∀ node ∈ nodes, keyHash node.1 size ≠ keyHash key size) := by
  obtain ⟨table, hall, hholds⟩ := insertAll_spec (holds_create size) hsize nodes
  refine ⟨table, hall, ?_⟩
  rw [List.nil_append] at hholds
  have hfind := find?_bucket size nodes key
  rw [search_of_holds hholds hsize, linkedListGet_eq, ← bucket_eq_nil, ← lastInserted_isSome]
  by_cases hnil : bucket size nodes (keyHash key size) = []
  · rw [hnil] at hfind
    simp [hnil, ← hfind]
  · rw [if_neg hnil, ← hfind]
    cases (bucket size nodes (keyHash key size)).find? (·.1 = key) with
    | none => simp [hnil]
    | some node => simp

/-- A key that was inserted twice. -/
theorem search_eq_lastInserted_iff_twice :
    ∃ table, (create 30).insertAll [([97], 1), ([97], 2)] = some table ∧
      table.search [97] = some (some 2) := by
  obtain ⟨table, hall, hsearch⟩ :=
    search_eq_lastInserted_iff (by decide : 0 < 30) [([97], 1), ([97], 2)] [97]
  exact ⟨table, hall, hsearch.mpr (Or.inl ⟨1, by simp⟩)⟩

/-- The user `a` is in the table, and `C` has the same hash. -/
theorem search_undefined_on_collision :
    ((create 30).insertAll [([97], ())]).map (fun table => table.search [67]) = some none := by
  decide

end ContextHashTable

/-! ## The table of the server -/

namespace HashTable

/-- The same lists in a table of thirty. -/
structure Agrees (table : HashTable) (sized : ContextHashTable UserContext) : Prop where
  size_eq : sized.size = tableSize
  length_array : sized.array.length = tableSize
  array_eq : ∀ index (h : index < sized.array.length), sized.array[index] = table.array index

theorem keyHash_lt_length {table : HashTable} {sized : ContextHashTable UserContext}
    (h : Agrees table sized) (key : Bytes) : keyHash key tableSize < sized.array.length := by
  rw [h.length_array]
  exact ContextHashTable.keyHash_lt (by decide) key

theorem agrees_create : Agrees create (.create tableSize) where
  size_eq := rfl
  length_array := List.length_replicate
  array_eq index h := by simp [ContextHashTable.create, create]

theorem search_eq_of_agrees {table : HashTable} {sized : ContextHashTable UserContext}
    (h : Agrees table sized) (key : Bytes) : table.search key = sized.search key := by
  have hindex := keyHash_lt_length h key
  rw [ContextHashTable.search, h.size_eq, List.getElem?_eq_getElem hindex, Option.bind_some,
    h.array_eq _ hindex, ContextHashTable.linkedListGet_eq]
  rfl

/-- The two tables stay the same under insertions. -/
theorem agrees_insert {table : HashTable} {sized : ContextHashTable UserContext}
    (h : Agrees table sized) (key : Bytes) (value : UserContext) :
    ∃ sized', sized.insert key value = some (sized', value) ∧
      Agrees (table.insert key value) sized' := by
  have hindex := keyHash_lt_length h key
  refine ⟨⟨sized.size, sized.array.set (keyHash key tableSize)
    ((key, value) :: sized.array[keyHash key tableSize])⟩, ?_, h.size_eq,
    by simpa using h.length_array, ?_⟩
  · rw [ContextHashTable.insert, h.size_eq, List.getElem?_eq_getElem hindex]
    rfl
  · intro index hi
    rw [List.length_set] at hi
    by_cases heq : index = keyHash key tableSize
    · subst heq
      simp [insert, h.array_eq _ hi]
    · simp [insert, h.array_eq _ hi, heq, Ne.symm heq]

end HashTable

end SyncServer
