import SyncServer.Files.UserFiles
import SyncServer.Library.LinkedList

/-! # The file lists in memory

The nodes of all users' file lists lie in one heap, and a context has the address of its first
node. A node is unlinked through the address of the pointer to it, which is the field of the
context or of the node before. What the functions do is what the functions on lists do.
-/

namespace SyncServer

open CText Ending LinkedList

/-- What is undefined: a null pointer is followed, or the address of a node that is not
allocated. -/
inductive HeapFault where
  | nullPointer
  | freed
  deriving DecidableEq, Repr

/-- The field `file_list` of the users that have a context, and the allocated nodes. -/
structure FileHeap where
  fileList : Bytes → Option (Option ℕ)
  nodes : Heap FileNode

/-- What the loop of `remove_file_from_context` has in `prev`. -/
inductive FileLink where
  | fileList
  | next (node : ℕ)
  deriving DecidableEq, Repr

namespace FileHeap

/-! ## The functions

A loop waits forever when its fuel is used up before it has come to the end.
-/

def initial : FileHeap := ⟨fun _ => none, fun _ => none⟩

/-- `FileLinkedList_get` from `node` on. -/
def get (nodes : Heap FileNode) (key : Bytes) : ℕ → Option ℕ → Ending HeapFault (Option ℕ)
  | _, none => done none
  | 0, some _ => waits
  | fuel + 1, some node => do
      let cell ← deref .freed (nodes node)
      if cell.value.key = key then done (some node) else get nodes key fuel cell.next

/-- `get_file_status` of a list, with what the disk has under the name. -/
def getFileStatus (nodes : Heap FileNode) (fuel : ℕ) (list : Option ℕ) (filename : Bytes)
    (content : Option Bytes) : Ending HeapFault FileStatus := do
  match ← get nodes filename fuel list with
  | none => done .notFound
  | some fileNode =>
      let cell ← deref .freed (nodes fileNode)
      done (if crc32 content ≠ cell.value.crc then .updated else .unchanged)

/-- `add_file_to_context`, with the allocator that `FileLinkedList_push` calls. -/
def addFileToContext (allocator : Allocator FileNode) (filename : Bytes) (content : Option Bytes)
    (username : Bytes) (s : FileHeap) : Ending HeapFault (FileHeap × Bool) :=
  match s.fileList username with
  | none => done (s, false)
  | some list => do
      let newHead ← deref .nullPointer (allocator.malloc s.nodes)
      done (⟨Function.update s.fileList username (some (some newHead)),
        s.nodes.store newHead ⟨⟨filename, crc32 content⟩, list⟩⟩, true)

/-- `*prev = next`. -/
def writeLink (username : Bytes) (next : Option ℕ) (s : FileHeap) :
    FileLink → Ending HeapFault FileHeap
  | .fileList => done { s with fileList := Function.update s.fileList username (some next) }
  | .next node => do
      let cell ← deref .freed (s.nodes node)
      done { s with nodes := s.nodes.store node { cell with next } }

/-- The loop of `remove_file_from_context`. -/
def removeLoop (username filename : Bytes) (s : FileHeap) :
    ℕ → FileLink → Option ℕ → Ending HeapFault (FileHeap × Bool)
  | _, _, none => done (s, false)
  | 0, _, some _ => waits
  | fuel + 1, prev, some head => do
      let cell ← deref .freed (s.nodes head)
      if cell.value.key = filename then
        let s ← s.writeLink username cell.next prev
        done ({ s with nodes := s.nodes.free head }, true)
      else removeLoop username filename s fuel (.next head) cell.next

def removeFileFromContext (fuel : ℕ) (filename username : Bytes) (s : FileHeap) :
    Ending HeapFault (FileHeap × Bool) :=
  match s.fileList username with
  | none => done (s, false)
  | some list => removeLoop username filename s fuel .fileList list

/-- What `handle_incoming_file` does to the list when a file was received. -/
def handleSend (fuel : ℕ) (allocator : Allocator FileNode) (username filename : Bytes)
    (content : Option Bytes) (s : FileHeap) (list : Option ℕ) : Ending HeapFault FileHeap := do
  match ← getFileStatus s.nodes fuel list filename content with
  | .notFound =>
      let (s, _) ← s.addFileToContext allocator filename content username
      done s
  | .updated =>
      let fileNode ← get s.nodes filename fuel list
      let fileNode ← deref .nullPointer fileNode
      let cell ← deref .freed (s.nodes fileNode)
      done { s with
        nodes := s.nodes.store fileNode ⟨⟨cell.value.key, crc32 content⟩, cell.next⟩ }
  | .unchanged => done s

/-- What `remove_file_from_user_list` does to the list. -/
def handleDelete (fuel : ℕ) (username filename : Bytes) (content : Option Bytes) (s : FileHeap)
    (list : Option ℕ) : Ending HeapFault FileHeap := do
  match ← getFileStatus s.nodes fuel list filename content with
  | .notFound => done s
  | .updated | .unchanged =>
      let (s, _) ← s.removeFileFromContext fuel filename username
      done s

/-! ## Runs -/

/-- A context is created, or a session of the user handles a file or a deletion. -/
inductive Call where
  | createContext (username : Bytes)
  | send (allocator : Allocator FileNode) (username filename : Bytes) (content : Option Bytes)
  | delete (username filename : Bytes) (content : Option Bytes)

/-- A user without a context has no session. -/
def call (fuel : ℕ) (s : FileHeap) : Call → Ending HeapFault FileHeap
  | .createContext username =>
      match s.fileList username with
      | none => done { s with fileList := Function.update s.fileList username (some none) }
      | some _ => done s
  | .send allocator username filename content =>
      match s.fileList username with
      | none => done s
      | some list => s.handleSend fuel allocator username filename content list
  | .delete username filename content =>
      match s.fileList username with
      | none => done s
      | some list => s.handleDelete fuel username filename content list

/-- The lists of the users that have a context. -/
abbrev Lists := Bytes → Option (List FileNode)

def onLists (lists : Lists) : Call → Lists
  | .createContext username =>
      Function.update lists username (some ((lists username).getD []))
  | .send _ username filename content =>
      Function.update lists username
        ((lists username).map fun list => listAfterSend list filename content)
  | .delete username filename _ =>
      Function.update lists username
        ((lists username).map fun list => removeFile list filename)

/-! ## What is kept -/

def heads (s : FileHeap) (username : Bytes) : Option ℕ := (s.fileList username).join

/-- The nodes without their addresses. -/
def values (entries : List (ℕ × FileNode)) : List FileNode := entries.map Prod.snd

@[simp] theorem values_nil : values [] = [] := rfl

@[simp] theorem values_cons (entry : ℕ × FileNode) (entries : List (ℕ × FileNode)) :
    values (entry :: entries) = entry.2 :: values entries := rfl

@[simp] theorem values_append (before after : List (ℕ × FileNode)) :
    values (before ++ after) = values before ++ values after := List.map_append

structure Holds (s : FileHeap) (entries : Bytes → List (ℕ × FileNode)) (lists : Lists) :
    Prop where
  shares : Shares s.nodes s.heads entries
  lists : ∀ username, lists username = (s.fileList username).map fun _ => values (entries username)

variable {s : FileHeap} {entries : Bytes → List (ℕ × FileNode)} {lists : Lists}
  {username filename : Bytes} {fuel : ℕ} {list : Option ℕ}

theorem holds_initial : Holds initial (fun _ => []) fun _ => none where
  shares := Shares.empty
  lists := fun _ => rfl

theorem heads_update (fileList : Bytes → Option (Option ℕ)) (nodes : Heap FileNode)
    (username : Bytes) (head : Option ℕ) :
    heads ⟨Function.update fileList username (some head), nodes⟩ =
      Function.update (heads ⟨fileList, nodes⟩) username head := by
  funext other
  by_cases h : other = username
  · subst h
    simp [heads]
  · simp [heads, Function.update_of_ne h]

/-- One list changes. -/
theorem Holds.update (h : Holds s entries lists) {nodes : Heap FileNode} {head : Option ℕ}
    {entries' : List (ℕ × FileNode)}
    (hshares : Shares nodes (Function.update s.heads username head)
      (Function.update entries username entries')) :
    Holds ⟨Function.update s.fileList username (some head), nodes⟩
      (Function.update entries username entries')
      (Function.update lists username (some (values entries'))) where
  shares := by
    rw [heads_update]
    exact hshares
  lists other := by
    by_cases hother : other = username
    · subst hother
      simp
    · simpa [Function.update_of_ne hother] using h.lists other

/-- One list changes after its first node. -/
theorem Holds.update_nodes (h : Holds s entries lists) (hlist : s.fileList username = some list)
    {nodes : Heap FileNode} {entries' : List (ℕ × FileNode)}
    (hshares : Shares nodes s.heads (Function.update entries username entries')) :
    Holds { s with nodes } (Function.update entries username entries')
      (Function.update lists username (some (values entries'))) := by
  have hsame : s.fileList = Function.update s.fileList username (some list) := by
    rw [← hlist, Function.update_eq_self]
  have hhead : s.heads = Function.update s.heads username list := by
    have hhead : s.heads username = list := by rw [heads, hlist]; rfl
    rw [← hhead, Function.update_eq_self]
  rw [hhead] at hshares
  have hupdate := h.update hshares
  rw [← hsame] at hupdate
  exact hupdate

theorem Holds.isList (h : Holds s entries lists) (hlist : s.fileList username = some list) :
    IsList s.nodes list (entries username) := by
  have hhead : s.heads username = list := by rw [heads, hlist]; rfl
  exact hhead ▸ h.shares.isList username

theorem Holds.lists_eq (h : Holds s entries lists) (hlist : s.fileList username = some list) :
    lists username = some (values (entries username)) := by
  rw [h.lists, hlist]
  rfl

/-! ### Looking up -/

/-- `FileLinkedList_get` gives the first node with the key. -/
theorem get_spec {nodes : Heap FileNode} (key : Bytes) {rest : List (ℕ × FileNode)}
    {start : Option ℕ} (h : Segment nodes start rest none) (hfuel : rest.length ≤ fuel) :
    get nodes key fuel start = done ((rest.find? (·.2.key = key)).map Prod.fst) := by
  induction rest generalizing start fuel with
  | nil =>
      obtain rfl := h.start_eq
      simp [get]
  | cons entry rest ih =>
      cases h with
      | @cons a node next _ _ hcell hrest =>
          cases fuel with
          | zero => simp at hfuel
          | succ fuel =>
              rw [get, hcell, deref_some, bind_done]
              by_cases hkey : node.key = key
              · simp [hkey]
              · simp only [hkey, if_false]
                rw [ih hrest (by simpa using hfuel)]
                simp [hkey]

theorem fileLinkedListGet_values (rest : List (ℕ × FileNode)) (key : Bytes) :
    fileLinkedListGet (values rest) key = (rest.find? (·.2.key = key)).map Prod.snd := by
  rw [fileLinkedListGet, values, List.find?_map]
  rfl

/-- A node that was found, and those before it. -/
theorem exists_of_find {rest : List (ℕ × FileNode)} {key : Bytes} {entry : ℕ × FileNode}
    (h : rest.find? (·.2.key = key) = some entry) :
    ∃ before after, rest = before ++ entry :: after ∧ entry.2.key = key ∧
      ∀ node ∈ values before, node.key ≠ key := by
  obtain ⟨hkey, before, after, heq, hbefore⟩ := List.find?_eq_some_iff_append.mp h
  refine ⟨before, after, heq, by simpa using hkey, fun node hnode => ?_⟩
  obtain ⟨entry, hentry, rfl⟩ := List.mem_map.mp hnode
  simpa using hbefore entry hentry

theorem getFileStatus_spec {nodes : Heap FileNode} {rest : List (ℕ × FileNode)}
    (h : IsList nodes list rest) (hfuel : rest.length ≤ fuel) (filename : Bytes)
    (content : Option Bytes) :
    getFileStatus nodes fuel list filename content =
      done (SyncServer.getFileStatus (values rest) filename content) := by
  rw [getFileStatus, get_spec filename h.segment hfuel, bind_done, SyncServer.getFileStatus,
    fileLinkedListGet_values]
  cases hfind : rest.find? (·.2.key = filename) with
  | none => rfl
  | some entry =>
      obtain ⟨before, after, rfl, -, -⟩ := exists_of_find hfind
      simp [h.cell]

/-! ### Removing -/

/-- The pointer to what comes after the entries. -/
def linkAfter (before : List (ℕ × FileNode)) : FileLink :=
  match last before with
  | none => .fileList
  | some node => .next node

/-- Unlinking the node that the walk stands at. -/
theorem unlink_spec (h : Holds s entries lists) (hlist : s.fileList username = some list)
    {before rest : List (ℕ × FileNode)} {a : ℕ} {node : FileNode}
    (hentries : entries username = before ++ (a, node) :: rest) :
    ∃ s', s.writeLink username (first rest) (linkAfter before) = done s' ∧
      Holds { s' with nodes := s'.nodes.free a } (Function.update entries username (before ++ rest))
        (Function.update lists username (some (values (before ++ rest)))) := by
  rcases List.eq_nil_or_concat before with rfl | ⟨front, ⟨p, y⟩, rfl⟩
  · exact ⟨_, rfl, h.update (h.shares.unlink_head username hentries)⟩
  · simp only [List.concat_eq_append, List.append_assoc, List.singleton_append] at hentries
    have hcell : s.nodes p = some ⟨y, some a⟩ := (hentries ▸ h.isList hlist).cell
    refine ⟨{ s with nodes := s.nodes.store p ⟨y, first rest⟩ }, ?_, ?_⟩
    · simp [linkAfter, writeLink, hcell]
    · have hshares := h.shares.unlink_after username hentries
      simpa using h.update_nodes hlist hshares

/-- The loop, with the entries before the place of the walk. -/
theorem removeLoop_spec (h : Holds s entries lists) (hlist : s.fileList username = some list)
    (filename : Bytes) (before : List (ℕ × FileNode)) {rest : List (ℕ × FileNode)}
    (hentries : entries username = before ++ rest) (hfuel : rest.length ≤ fuel) :
    ∃ s' entries', removeLoop username filename s fuel (linkAfter before) (first rest) =
        done (s', (values rest).any (·.key = filename)) ∧
      Holds s' entries' (Function.update lists username
        (some (values before ++ removeFile (values rest) filename))) := by
  induction rest generalizing before fuel with
  | nil =>
      have hsame : lists username = some (values before) := by
        rw [h.lists_eq hlist, hentries, List.append_nil]
      refine ⟨s, entries, by simp [removeLoop], ?_⟩
      rw [values_nil, removeFile, List.eraseP_nil, List.append_nil, ← hsame,
        Function.update_eq_self]
      exact h
  | cons entry rest ih =>
      obtain ⟨a, node⟩ := entry
      cases fuel with
      | zero => simp at hfuel
      | succ fuel =>
          have hcell : s.nodes a = some ⟨node, first rest⟩ := (hentries ▸ h.isList hlist).cell
          rw [first_cons, removeLoop, hcell, deref_some, bind_done]
          by_cases hkey : node.key = filename
          · obtain ⟨s', hwrite, hholds⟩ := unlink_spec h hlist hentries
            refine ⟨{ s' with nodes := s'.nodes.free a },
              Function.update entries username (before ++ rest), by simp [hkey, hwrite], ?_⟩
            simpa [removeFile, hkey] using hholds
          · have hnext : entries username = (before ++ [(a, node)]) ++ rest := by
              simpa using hentries
            obtain ⟨s', entries', hloop, hholds⟩ := ih _ hnext (by simpa using hfuel)
            have hlink : linkAfter (before ++ [(a, node)]) = .next a := by simp [linkAfter]
            rw [hlink] at hloop
            refine ⟨s', entries', by simp [hkey, hloop], ?_⟩
            simpa [removeFile, hkey] using hholds

theorem removeFileFromContext_spec (h : Holds s entries lists)
    (hlist : s.fileList username = some list) (hfuel : (entries username).length ≤ fuel)
    (filename : Bytes) :
    ∃ s' entries', s.removeFileFromContext fuel filename username =
        done (s', (values (entries username)).any (·.key = filename)) ∧
      Holds s' entries' (Function.update lists username
        (some (removeFile (values (entries username)) filename))) := by
  obtain ⟨s', entries', hloop, hholds⟩ := removeLoop_spec h hlist filename [] rfl hfuel
  refine ⟨s', entries', ?_, hholds⟩
  rw [removeFileFromContext, hlist, (h.isList hlist).head_eq]
  exact hloop

/-! ### Changing the CRC -/

theorem setCrc_append {key : Bytes} (crc : UInt32) {before after : List FileNode}
    {node : FileNode} (hkey : node.key = key) (hbefore : ∀ other ∈ before, other.key ≠ key) :
    setCrc key crc (before ++ node :: after) = before ++ ⟨node.key, crc⟩ :: after := by
  induction before with
  | nil => rw [List.nil_append, setCrc, if_pos hkey, List.nil_append]
  | cons other before ih =>
      obtain ⟨hother, hbefore⟩ := List.forall_mem_cons.mp hbefore
      rw [List.cons_append, setCrc, if_neg hother, ih hbefore, List.cons_append]

/-! ### A file or a deletion -/

theorem length_setCrc (key : Bytes) (crc : UInt32) (list : List FileNode) :
    (setCrc key crc list).length = list.length := by
  have hkeys := congrArg List.length (keys_setCrc key crc list)
  simpa [keys] using hkeys

theorem length_listAfterSend_le (list : List FileNode) (filename : Bytes)
    (content : Option Bytes) :
    (listAfterSend list filename content).length ≤ list.length + 1 := by
  rw [listAfterSend]
  split
  · exact Nat.le_refl _
  · rw [length_setCrc]
    exact Nat.le_succ _
  · exact Nat.le_succ _

/-- A file that was received changes the list of its user as the function on lists does, unless
there is no memory. -/
theorem handleSend_spec (h : Holds s entries lists) (hlist : s.fileList username = some list)
    (hfuel : (entries username).length ≤ fuel) (allocator : Allocator FileNode)
    (filename : Bytes) (content : Option Bytes) :
    (s.handleSend fuel allocator username filename content list = faults .nullPointer ∧
      allocator.malloc s.nodes = none) ∨
    ∃ s' entries', s.handleSend fuel allocator username filename content list = done s' ∧
      Holds s' entries' (Function.update lists username
        (some (listAfterSend (values (entries username)) filename content))) := by
  have hisList := h.isList hlist
  have hhead : s.heads username = list := by rw [heads, hlist]; rfl
  rw [handleSend, getFileStatus_spec hisList hfuel, bind_done, listAfterSend]
  cases hstatus : SyncServer.getFileStatus (values (entries username)) filename content with
  | notFound =>
      simp only [addFileToContext, hlist]
      cases hmalloc : allocator.malloc s.nodes with
      | none => exact Or.inl ⟨rfl, rfl⟩
      | some newHead =>
          have hshares := h.shares.push username (allocator.fresh _ _ hmalloc)
            ⟨filename, crc32 content⟩
          rw [hhead] at hshares
          exact Or.inr ⟨_, _, rfl, h.update hshares⟩
  | updated =>
      refine Or.inr ?_
      simp only [SyncServer.getFileStatus, fileLinkedListGet_values] at hstatus
      cases hfind : (entries username).find? (·.2.key = filename) with
      | none => simp [hfind] at hstatus
      | some entry =>
          obtain ⟨before, after, hentries, hkey, hbefore⟩ := exists_of_find hfind
          have hcell : s.nodes entry.1 = some ⟨entry.2, first after⟩ := (hentries ▸ hisList).cell
          have hshares := h.shares.store_value username (y := ⟨entry.2.key, crc32 content⟩)
            hentries hcell
          have hholds := h.update_nodes hlist hshares
          rw [values_append, values_cons,
            ← setCrc_append (crc32 content) hkey hbefore, ← values_cons, ← values_append,
            ← hentries] at hholds
          refine ⟨_, _, ?_, hholds⟩
          simp [get_spec filename hisList.segment hfuel, hfind, hcell]
  | unchanged =>
      refine Or.inr ⟨s, entries, rfl, ?_⟩
      rw [← h.lists_eq hlist, Function.update_eq_self]
      exact h

theorem handleDelete_spec (h : Holds s entries lists) (hlist : s.fileList username = some list)
    (hfuel : (entries username).length ≤ fuel) (filename : Bytes) (content : Option Bytes) :
    ∃ s' entries', s.handleDelete fuel username filename content list = done s' ∧
      Holds s' entries' (Function.update lists username
        (some (removeFile (values (entries username)) filename))) := by
  rw [handleDelete, getFileStatus_spec (h.isList hlist) hfuel, bind_done]
  obtain ⟨s', entries', hremove, hholds⟩ := removeFileFromContext_spec h hlist hfuel filename
  cases hstatus : SyncServer.getFileStatus (values (entries username)) filename content with
  | notFound =>
      refine ⟨s, entries, rfl, ?_⟩
      rw [removeFile_of_not_listed (getFileStatus_eq_notFound.mp hstatus), ← h.lists_eq hlist,
        Function.update_eq_self]
      exact h
  | updated | unchanged => exact ⟨s', entries', by simp [hremove], hholds⟩

/-! ## Every run -/

/-- The allocator of the call can fail. -/
def Call.CanFail : Call → Prop
  | .send allocator _ _ _ => ∃ nodes, allocator.malloc nodes = none
  | _ => False

theorem call_spec (h : Holds s entries lists) (hfuel : ∀ username list,
    lists username = some list → list.length ≤ fuel) (c : Call) :
    (s.call fuel c = faults .nullPointer ∧ c.CanFail) ∨
    ∃ s' entries', s.call fuel c = done s' ∧ Holds s' entries' (onLists lists c) := by
  have hlength : ∀ {username list}, s.fileList username = some list →
      (entries username).length ≤ fuel := fun hlist => by
    simpa [values] using hfuel _ _ (h.lists_eq hlist)
  cases c with
  | createContext username =>
      refine Or.inr ?_
      rw [call, onLists]
      cases hlist : s.fileList username with
      | none =>
          have hhead : s.heads username = none := by rw [heads, hlist]; rfl
          have hnil : entries username = [] := by
            have hisList := h.shares.isList username
            rw [hhead] at hisList
            generalize entries username = rest at hisList
            cases hisList.segment
            rfl
          have hshares : Shares s.nodes (Function.update s.heads username none)
              (Function.update entries username []) := by
            rw [← hhead, ← hnil, Function.update_eq_self, Function.update_eq_self]
            exact h.shares
          have hholds := h.update hshares
          have hlists : lists username = none := by rw [h.lists, hlist]; rfl
          rw [hlists]
          exact ⟨_, _, rfl, hholds⟩
      | some list =>
          refine ⟨s, entries, rfl, ?_⟩
          rw [h.lists_eq hlist, Option.getD_some, ← h.lists_eq hlist, Function.update_eq_self]
          exact h
  | send allocator username filename content =>
      rw [call, onLists]
      cases hlist : s.fileList username with
      | none =>
          refine Or.inr ⟨s, entries, rfl, ?_⟩
          have hnone : lists username = none := by rw [h.lists, hlist]; rfl
          rw [hnone, Option.map_none, ← hnone, Function.update_eq_self]
          exact h
      | some list =>
          rw [h.lists_eq hlist, Option.map_some]
          rcases handleSend_spec h hlist (hlength hlist) allocator filename content with
            ⟨hfault, hmalloc⟩ | hdone
          · exact Or.inl ⟨hfault, s.nodes, hmalloc⟩
          · exact Or.inr hdone
  | delete username filename content =>
      refine Or.inr ?_
      rw [call, onLists]
      cases hlist : s.fileList username with
      | none =>
          refine ⟨s, entries, rfl, ?_⟩
          have hnone : lists username = none := by rw [h.lists, hlist]; rfl
          rw [hnone, Option.map_none, ← hnone, Function.update_eq_self]
          exact h
      | some list =>
          rw [h.lists_eq hlist, Option.map_some]
          exact handleDelete_spec h hlist (hlength hlist) filename content

/-- A call makes a list longer by one node at most. -/
theorem length_onLists {n : ℕ} (h : ∀ username list, lists username = some list → list.length ≤ n)
    (c : Call) (username : Bytes) (list : List FileNode)
    (hlist : onLists lists c username = some list) : list.length ≤ n + 1 := by
  have hupdate : ∀ {other new}, (∀ list, new = some list → list.length ≤ n + 1) →
      Function.update lists other new username = some list → list.length ≤ n + 1 := by
    intro other new hnew heq
    by_cases hother : username = other
    · subst hother
      rw [Function.update_self] at heq
      exact hnew list heq
    · rw [Function.update_of_ne hother] at heq
      exact Nat.le_succ_of_le (h username list heq)
  cases c with
  | createContext other =>
      refine hupdate (fun new hnew => ?_) hlist
      cases hold : lists other with
      | none =>
          rw [hold] at hnew
          cases hnew
          exact Nat.zero_le _
      | some old =>
          rw [hold] at hnew
          cases hnew
          exact Nat.le_succ_of_le (h other old hold)
  | send _ other filename content =>
      refine hupdate (fun new hnew => ?_) hlist
      obtain ⟨old, hold, rfl⟩ := Option.map_eq_some_iff.mp hnew
      have hle := h other old hold
      have hlength := length_listAfterSend_le old filename content
      omega
  | delete other filename _ =>
      refine hupdate (fun new hnew => ?_) hlist
      obtain ⟨old, hold, rfl⟩ := Option.map_eq_some_iff.mp hnew
      exact (List.eraseP_sublist.length_le).trans (Nat.le_succ_of_le (h other old hold))

theorem run_spec (calls : List Call) (h : Holds s entries lists) {n : ℕ}
    (hlength : ∀ username list, lists username = some list → list.length ≤ n)
    (hfuel : n + calls.length ≤ fuel) :
    (calls.foldlM (call fuel) s = faults .nullPointer ∧ ∃ c ∈ calls, c.CanFail) ∨
    ∃ s' entries', calls.foldlM (call fuel) s = done s' ∧
      Holds s' entries' (calls.foldl onLists lists) := by
  induction calls generalizing s entries lists n with
  | nil => exact Or.inr ⟨s, entries, rfl, h⟩
  | cons c calls ih =>
      rw [List.length_cons] at hfuel
      have hfuel' : ∀ username list, lists username = some list → list.length ≤ fuel :=
        fun username list hlist => (hlength username list hlist).trans (by omega)
      rw [List.foldlM_cons]
      rcases call_spec h hfuel' c with ⟨hfault, hfail⟩ | ⟨s', entries', hdone, hholds⟩
      · rw [hfault]
        exact Or.inl ⟨rfl, c, List.mem_cons_self, hfail⟩
      · rw [hdone, bind_done]
        rcases ih hholds (length_onLists hlength c) (by omega) with ⟨hfault, c', hc', hfail⟩ | hrun
        · exact Or.inl ⟨hfault, c', List.mem_cons_of_mem _ hc', hfail⟩
        · exact Or.inr hrun

/-- Whatever contexts are created and whatever files and deletions the sessions handle, no freed
node and no null pointer is followed, unless there is no memory; and then the heap consists of the
lists of the users, no node is in two of them, and each is the list that the functions on lists
give. -/
theorem fileLists_of_run (calls : List Call) (hfuel : calls.length ≤ fuel) :
    (calls.foldlM (call fuel) initial = faults .nullPointer ∧ ∃ c ∈ calls, c.CanFail) ∨
    ∃ s entries, calls.foldlM (call fuel) initial = done s ∧
      Shares s.nodes s.heads entries ∧
      ∀ username, (s.fileList username).map (fun _ => values (entries username)) =
        calls.foldl onLists (fun _ => none) username := by
  have hempty : ∀ username list, (fun _ => none : Lists) username = some list →
      list.length ≤ 0 := fun _ _ h => by cases h
  have hlength : 0 + calls.length ≤ fuel := by omega
  rcases run_spec calls holds_initial hempty hlength with hfault | ⟨s, entries, hdone, hholds⟩
  · exact Or.inl hfault
  · exact Or.inr ⟨s, entries, hdone, hholds.shares, fun username => (hholds.lists username).symm⟩

/-- Two users have a file each, and one of them changes and deletes it. -/
def twoUsers : List Call :=
  [.createContext [97], .createContext [98], .send (.single 8) [97] [102] (some [1]),
    .send (.single 16) [98] [102] (some [2]), .send (.single 24) [97] [103] none,
    .send (.single 32) [97] [102] (some [3]), .delete [97] [103] none]

theorem fileLists_of_run_twoUsers :
    ∃ s entries, twoUsers.foldlM (call 7) initial = done s ∧ Shares s.nodes s.heads entries ∧
      (s.fileList [97]).map (fun _ => values (entries [97])) =
        some [⟨[102], crc32 (some [3])⟩] := by
  rcases fileLists_of_run twoUsers (by decide : twoUsers.length ≤ 7) with
    ⟨hfault, -⟩ | ⟨s, entries, hdone, hshares, hlists⟩
  · have hreturns : (twoUsers.foldlM (call 7) initial).returned.isSome = true := by
      decide +kernel
    rw [hfault] at hreturns
    cases hreturns
  · exact ⟨s, entries, hdone, hshares, (hlists [97]).trans (by decide +kernel)⟩

end FileHeap

end SyncServer
