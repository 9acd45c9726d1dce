import Mathlib.Data.List.ReduceOption
import Mathlib.Logic.Function.Basic
import SyncServer.Library.CText

/-! # The users of a server

Each user has a context with two session slots and a list of files. The contexts lie in a hash
table; manager and replica keep one each.
-/

namespace SyncServer

open CText

/-! ## Files -/

/-- `struct filenode`; the rest of the list is its `next`. -/
structure FileNode where
  key : Bytes
  crc : UInt32
  deriving DecidableEq, Repr

def fileLinkedListPush (list : List FileNode) (key : Bytes) (fileHash : UInt32) : List FileNode :=
  ⟨key, fileHash⟩ :: list

def fileLinkedListGet (list : List FileNode) (key : Bytes) : Option FileNode :=
  list.find? (·.key = key)

/-- One step of the loop over the bits. -/
def crcBit (crc : UInt32) : UInt32 :=
  if crc &&& 1 ≠ 0 then (crc >>> 1) ^^^ 0xEDB88320 else crc >>> 1

def crcByte (crc : UInt32) (byte : UInt8) : UInt32 :=
  Nat.iterate crcBit 8 (crc ^^^ byte.toUInt32)

/-- `crc32` of the file at a path, zero where there is none. -/
def crc32 : Option Bytes → UInt32
  | none => 0
  | some content => content.foldl crcByte 0xFFFFFFFF ^^^ 0xFFFFFFFF

/-! ## Slots -/

/-- Filling a free slot adds one entry to those that are taken. -/
theorem perm_reduceOption_set {α : Type*} {slots : List (Option α)} {index : ℕ} {x : α}
    (h : slots[index]? = some none) :
    (slots.set index (some x)).reduceOption.Perm (x :: slots.reduceOption) := by
  induction slots generalizing index with
  | nil => simp at h
  | cons slot slots ih =>
      cases index with
      | zero =>
          obtain rfl : slot = none := by simpa using h
          simp
      | succ index =>
          have hrec := @ih index (by simpa using h)
          cases slot with
          | none => simpa using hrec
          | some y =>
              simp only [List.set_cons_succ, List.reduceOption_cons_of_some]
              exact (hrec.cons y).trans (List.Perm.swap x y _)

/-- Emptying a slot takes its entry away. -/
theorem perm_reduceOption_clear {α : Type*} {slots : List (Option α)} {index : ℕ} {x : α}
    (h : slots[index]? = some (some x)) :
    slots.reduceOption.Perm (x :: (slots.set index none).reduceOption) := by
  obtain ⟨hindex, hx⟩ := List.getElem?_eq_some_iff.mp h
  have hfree : (slots.set index none)[index]? = some none := List.getElem?_set_self hindex
  have hset : slots = (slots.set index none).set index (some x) := by
    rw [List.set_set, ← hx, List.set_getElem_self]
  have hperm := perm_reduceOption_set (x := x) hfree
  rwa [← hset] at hperm

/-- With fewer entries than slots one slot is free. -/
theorem exists_free_of_reduceOption {α : Type*} {slots : List (Option α)}
    (h : slots.reduceOption.length < slots.length) : ∃ slot ∈ slots, slot.isNone = true := by
  induction slots with
  | nil => simp at h
  | cons slot slots ih =>
      cases slot with
      | none => exact ⟨none, List.mem_cons_self, rfl⟩
      | some x =>
          have hrec := ih (by simpa using h)
          rcases hrec with ⟨slot, hslot, hnone⟩
          exact ⟨slot, List.mem_cons_of_mem _ hslot, hnone⟩

/-! ## Sessions -/

def maxUsernameLength : ℕ := 32

/-- The C string that `read_username` leaves in its buffer. -/
structure Username where
  name : Bytes
  length_le : name.length ≤ maxUsernameLength
  zero_not_mem : 0 ∉ name
  deriving DecidableEq, Repr

def readUsername (request : Bytes) : Username where
  name := cString (request.take maxUsernameLength)
  length_le := (List.takeWhile_prefix _).length_le.trans (List.length_take_le ..)
  zero_not_mem := zero_not_mem_cString _

def maxSessions : ℕ := 2

instance : NeZero maxSessions := ⟨by decide⟩

inductive FileEntryType where
  | send
  | delete
  deriving DecidableEq, Repr

/-- What the send thread of a session has still to deliver to its client. -/
structure FileEntry where
  type : FileEntryType
  filename : Bytes
  deriving DecidableEq, Repr

structure Session where
  sessionIndex : ℕ
  active : Bool
  deviceAddress : SockAddrIn
  syncBuffer : List FileEntry
  deriving DecidableEq, Repr

/-- A user with its slots. A session knows the slot that it is in. -/
structure UserContext where
  username : Bytes
  sessions : List (Option Session)
  fileList : List FileNode
  length_sessions : sessions.length = maxSessions
  indexed : ∀ (index : ℕ) (session : Session), sessions[index]? = some (some session) →
    session.sessionIndex = index
  deriving DecidableEq

def createContext (username : Bytes) : UserContext where
  username := username
  sessions := List.replicate maxSessions none
  fileList := []
  length_sessions := List.length_replicate
  indexed := by simp [List.getElem?_replicate]

def createSession (index : ℕ) (deviceAddress : SockAddrIn) : Session :=
  ⟨index, true, deviceAddress, []⟩

namespace UserContext

/-- `find_free_session_index`, `none` for -1. -/
def findFreeSessionIndex (context : UserContext) : Option ℕ :=
  context.sessions.findIdx? (·.isNone)

def getUserSessionByAddress (context : UserContext) (address : SockAddrIn) : Option Session :=
  context.sessions.findSome? fun session => session.filter (·.deviceAddress = address)

/-- `sessions[session->session_index] = session`. -/
def addSession (context : UserContext) (session : Session) : UserContext where
  username := context.username
  sessions := context.sessions.set session.sessionIndex (some session)
  fileList := context.fileList
  length_sessions := by rw [List.length_set, context.length_sessions]
  indexed index other h := by
    by_cases hi : session.sessionIndex = index
    · subst hi
      rw [List.getElem?_set_self'] at h
      cases hs : context.sessions[session.sessionIndex]? with
      | none => simp [hs] at h
      | some old => simp_all
    · rw [List.getElem?_set_ne hi] at h
      exact context.indexed index other h

theorem getElem?_addSession_self {context : UserContext} {session : Session}
    {old : Option Session} (h : context.sessions[session.sessionIndex]? = some old) :
    (context.addSession session).sessions[session.sessionIndex]? = some (some session) := by
  rw [addSession, List.getElem?_set_self', h]
  rfl

theorem getElem?_addSession_of_ne {session : Session} {index : ℕ}
    (h : session.sessionIndex ≠ index) (context : UserContext) :
    (context.addSession session).sessions[index]? = context.sessions[index]? :=
  List.getElem?_set_ne h

/-- `sessions[index] = NULL`. -/
def removeSession (context : UserContext) (index : ℕ) : UserContext where
  username := context.username
  sessions := context.sessions.set index none
  fileList := context.fileList
  length_sessions := by rw [List.length_set, context.length_sessions]
  indexed i other h := by
    by_cases hi : index = i
    · subst hi
      rw [List.getElem?_set_self'] at h
      cases hs : context.sessions[index]? with
      | none => simp [hs] at h
      | some old => simp [hs] at h
    · rw [List.getElem?_set_ne hi] at h
      exact context.indexed i other h

def setFileList (context : UserContext) (fileList : List FileNode) : UserContext :=
  { context with fileList := fileList }

/-! ### The addresses in the slots -/

/-- The device addresses of the sessions in the slots. -/
def addresses (context : UserContext) : List SockAddrIn :=
  context.sessions.reduceOption.map (·.deviceAddress)

@[simp] theorem addresses_createContext (username : Bytes) :
    (createContext username).addresses = [] := rfl

@[simp] theorem addresses_setFileList (context : UserContext) (fileList : List FileNode) :
    (context.setFileList fileList).addresses = context.addresses := rfl

theorem addresses_addSession {context : UserContext} {session : Session}
    (h : context.sessions[session.sessionIndex]? = some none) :
    (context.addSession session).addresses.Perm
      (session.deviceAddress :: context.addresses) :=
  (perm_reduceOption_set h).map fun session : Session => session.deviceAddress

theorem addresses_removeSession {context : UserContext} {session : Session}
    (h : context.sessions[session.sessionIndex]? = some (some session)) :
    context.addresses.Perm
      (session.deviceAddress :: (context.removeSession session.sessionIndex).addresses) :=
  (perm_reduceOption_clear h).map fun session : Session => session.deviceAddress

theorem findFreeSessionIndex_eq_some {context : UserContext} {index : ℕ}
    (h : context.findFreeSessionIndex = some index) : context.sessions[index]? = some none := by
  have hfree := List.findIdx?_eq_some_iff_getElem.mp h
  rcases hfree with ⟨hindex, hnone, -⟩
  rw [List.getElem?_eq_getElem hindex, Option.isNone_iff_eq_none.mp hnone]

/-- A slot is found while fewer sessions are there than slots. -/
theorem findFreeSessionIndex_ne_none {context : UserContext}
    (h : context.addresses.length < maxSessions) : context.findFreeSessionIndex ≠ none := by
  have hlength : context.sessions.reduceOption.length < context.sessions.length := by
    rw [context.length_sessions]
    simpa [addresses] using h
  rcases exists_free_of_reduceOption hlength with ⟨slot, hslot, hnone⟩
  intro hfind
  rw [List.findIdx?_eq_none_iff.mp hfind slot hslot] at hnone
  cases hnone

/-- The session found is in its own slot and has the address. -/
theorem getUserSessionByAddress_eq_some {context : UserContext} {address : SockAddrIn}
    {session : Session} (h : context.getUserSessionByAddress address = some session) :
    context.sessions[session.sessionIndex]? = some (some session) ∧
      session.deviceAddress = address := by
  rcases List.exists_of_findSome?_eq_some h with ⟨slot, hslot, hfilter⟩
  obtain ⟨rfl, haddress⟩ := Option.filter_eq_some_iff.mp hfilter
  obtain ⟨index, hindex⟩ := List.mem_iff_getElem?.mp hslot
  exact ⟨context.indexed index session hindex ▸ hindex, by simpa using haddress⟩

theorem getUserSessionByAddress_eq_none_iff {context : UserContext} {address : SockAddrIn} :
    context.getUserSessionByAddress address = none ↔ address ∉ context.addresses := by
  simp only [getUserSessionByAddress, addresses, List.findSome?_eq_none_iff,
    Option.filter_eq_none_iff, List.mem_map, List.reduceOption_mem_iff, not_exists, not_and]
  constructor
  · intro h session hsession haddress
    simpa [haddress] using h (some session) hsession session rfl
  · rintro h _ hslot session rfl
    simpa using h session hslot

end UserContext

/-! ## The hash table -/

/-- A `char` in the arithmetic of `size_t`: it is signed. -/
def charValue (c : UInt8) : ℕ := if c.toNat < 128 then c.toNat else 2 ^ 64 - 256 + c.toNat

def primeHash : ℕ := 131

def keyHash (key : Bytes) (modulo : ℕ) : ℕ :=
  key.foldl (fun hash c => (primeHash * hash + charValue c) % 2 ^ 64 % modulo) 0

/-- The size that `main` gives the table. -/
def tableSize : ℕ := 30

/-- `LinkedList_get`. The loop tests the head of the list and not the node it has come to, so a
list with nodes but without the key ends in a null pointer: the outer `none`. -/
def linkedListGet (list : List (Bytes × UserContext)) (key : Bytes) : Option (Option UserContext) :=
  if list = [] then some none else (list.find? (·.1 = key)).map fun node => some node.2

/-- A change of the context in the first node with the key. -/
def linkedListModify (key : Bytes) (f : UserContext → UserContext) :
    List (Bytes × UserContext) → List (Bytes × UserContext)
  | [] => []
  | node :: list =>
      if node.1 = key then (node.1, f node.2) :: list else node :: linkedListModify key f list

theorem mem_linkedListModify {key : Bytes} {f : UserContext → UserContext}
    {list : List (Bytes × UserContext)} {node : Bytes × UserContext}
    (h : node ∈ linkedListModify key f list) : ∃ old ∈ list, node.1 = old.1 := by
  induction list with
  | nil => cases h
  | cons first list ih =>
      simp only [linkedListModify] at h
      split at h
      · rcases List.mem_cons.mp h with rfl | h
        · exact ⟨first, List.mem_cons_self, rfl⟩
        · exact ⟨node, List.mem_cons_of_mem _ h, rfl⟩
      · rcases List.mem_cons.mp h with rfl | h
        · exact ⟨node, List.mem_cons_self, rfl⟩
        · obtain ⟨old, hold, heq⟩ := ih h
          exact ⟨old, List.mem_cons_of_mem _ hold, heq⟩

/-- The array of lists; every node is in the list of its hash. -/
structure HashTable where
  array : ℕ → List (Bytes × UserContext)
  hashed : ∀ index, ∀ node ∈ array index, keyHash node.1 tableSize = index

namespace HashTable

def create : HashTable := ⟨fun _ => [], nofun⟩

def search (table : HashTable) (key : Bytes) : Option (Option UserContext) :=
  linkedListGet (table.array (keyHash key tableSize)) key

def insert (table : HashTable) (key : Bytes) (value : UserContext) : HashTable where
  array := Function.update table.array (keyHash key tableSize)
    ((key, value) :: table.array (keyHash key tableSize))
  hashed index node h := by
    by_cases hi : index = keyHash key tableSize
    · subst hi
      rw [Function.update_self] at h
      rcases List.mem_cons.mp h with rfl | h
      · rfl
      · exact table.hashed _ node h
    · rw [Function.update_of_ne hi] at h
      exact table.hashed index node h

/-- A change of the context under the key. -/
def modify (table : HashTable) (key : Bytes) (f : UserContext → UserContext) : HashTable where
  array := Function.update table.array (keyHash key tableSize)
    (linkedListModify key f (table.array (keyHash key tableSize)))
  hashed index node h := by
    by_cases hi : index = keyHash key tableSize
    · subst hi
      rw [Function.update_self] at h
      obtain ⟨old, hold, heq⟩ := mem_linkedListModify h
      rw [heq]
      exact table.hashed _ old hold
    · rw [Function.update_of_ne hi] at h
      exact table.hashed index node h

/-- `get_or_create_context`: the table with the context in it, and the context. -/
def getOrCreateContext (table : HashTable) (username : Bytes) : Option (HashTable × UserContext) :=
  (table.search username).map fun found =>
    match found with
    | some context => (table, context)
    | none => (table.insert username (createContext username), createContext username)

/-! ### The contexts by name -/

/-- The context that the table holds for a user. -/
def find (table : HashTable) (key : Bytes) : Option UserContext :=
  ((table.array (keyHash key tableSize)).find? (·.1 = key)).map Prod.snd

theorem search_eq_some {table : HashTable} {key : Bytes} {context : UserContext} :
    table.search key = some (some context) ↔ table.find key = some context := by
  unfold search linkedListGet find
  split
  · rename_i hnil
    simp [hnil]
  · simp [Option.map_eq_some_iff]

theorem find_of_search_none {table : HashTable} {key : Bytes} (h : table.search key = some none) :
    table.find key = none := by
  unfold search linkedListGet at h
  split at h
  · rename_i hnil
    simp [find, hnil]
  · simp at h

theorem find_insert (table : HashTable) (key : Bytes) (value : UserContext) (other : Bytes) :
    (table.insert key value).find other = if other = key then some value else table.find other := by
  by_cases ho : other = key
  · subst ho
    simp [find, insert]
  · rw [if_neg ho]
    by_cases hh : keyHash other tableSize = keyHash key tableSize
    · simp [find, insert, hh, Ne.symm ho]
    · simp [find, insert, hh]

theorem find?_linkedListModify (key : Bytes) (f : UserContext → UserContext)
    (list : List (Bytes × UserContext)) (other : Bytes) :
    ((linkedListModify key f list).find? (·.1 = other)).map Prod.snd =
      if other = key then ((list.find? (·.1 = key)).map Prod.snd).map f
      else (list.find? (·.1 = other)).map Prod.snd := by
  induction list with
  | nil => simp [linkedListModify]
  | cons node list ih =>
      simp only [linkedListModify]
      by_cases hn : node.1 = key
      · by_cases ho : other = key
        · subst ho
          simp [hn]
        · have hno : node.1 ≠ other := fun h => ho (h.symm.trans hn)
          simp [hn, ho, Ne.symm ho]
      · by_cases hno : node.1 = other
        · have ho : other ≠ key := fun h => hn (hno.trans h)
          simp [hno, ho]
        · simp only [hn, ite_false, List.find?_cons, hno, decide_false, ih]

theorem find_modify (table : HashTable) (key : Bytes) (f : UserContext → UserContext)
    (other : Bytes) :
    (table.modify key f).find other =
      if other = key then (table.find key).map f else table.find other := by
  by_cases hh : keyHash other tableSize = keyHash key tableSize
  · simp only [find, modify, hh, Function.update_self, find?_linkedListModify]
  · have ho : other ≠ key := fun h => hh (by rw [h])
    simp [find, modify, hh, ho]

/-- Whether a search runs off the end of its list depends on who the users are. -/
theorem search_eq_none_iff {table : HashTable} {key : Bytes} :
    table.search key = none ↔ table.find key = none ∧
      ∃ other, keyHash other tableSize = keyHash key tableSize ∧
        (table.find other).isSome = true := by
  unfold search linkedListGet
  split
  · rename_i hnil
    simp only [reduceCtorEq, false_iff, not_and, not_exists]
    intro _ other hh
    simp [find, hh, hnil]
  · rename_i hne
    simp only [Option.map_eq_none_iff, find]
    constructor
    · intro h
      obtain ⟨node, list, hlist⟩ := List.exists_cons_of_ne_nil hne
      have hnode := table.hashed _ node (hlist ▸ List.mem_cons_self)
      exact ⟨h, node.1, hnode, by simp [hnode, hlist]⟩
    · exact fun h => h.1

theorem find_getOrCreateContext {table table' : HashTable} {username : Bytes}
    {context : UserContext} (h : table.getOrCreateContext username = some (table', context)) :
    table'.find username = some context ∧
      context = (table.find username).getD (createContext username) ∧
      ∀ other, other ≠ username → table'.find other = table.find other := by
  obtain ⟨found, hfound, h⟩ := Option.map_eq_some_iff.mp h
  cases found with
  | some old =>
      have hold := search_eq_some.mp hfound
      obtain ⟨rfl, rfl⟩ := by simpa using h
      exact ⟨hold, by simp [hold], fun _ _ => rfl⟩
  | none =>
      have hnone := find_of_search_none hfound
      obtain ⟨rfl, rfl⟩ := by simpa using h
      refine ⟨by simp [find_insert], by simp [hnone], fun other ho => ?_⟩
      simp [find_insert, ho]

end HashTable

end SyncServer
