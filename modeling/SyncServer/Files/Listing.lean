import SyncServer.Library.CText

/-! # The listing of a folder

`list_files` appends a block for each file to a buffer that it enlarges before. The estimate for
a block has a slack of 200 bytes for the fixed texts.
-/

namespace SyncServer

open CText

/-- The times of a file as `strftime` writes them. -/
structure FileTimes where
  modTime : Bytes
  accTime : Bytes
  chgTime : Bytes
  deriving DecidableEq, Repr

/-- `struct dirent`, with what `stat` and `strftime` give for it; `none` where `stat` fails. -/
structure DirEntry where
  name : Bytes
  times : Option FileTimes
  deriving DecidableEq, Repr

/-- The result of `list_files` in its allocation. -/
structure ListBuffer where
  bufferSize : ℕ
  result : Bytes
  terminated : result.length < bufferSize
  deriving DecidableEq, Repr

namespace ListBuffer

/-- `malloc(4096)` and an empty string. -/
def start : ListBuffer := ⟨4096, [], by decide⟩

/-- The doubling loop. -/
def double (needed bufferSize : ℕ) (h : 0 < bufferSize) : ℕ :=
  if needed > bufferSize then double needed (bufferSize * 2) (by omega) else bufferSize
termination_by needed - bufferSize

theorem le_double (needed bufferSize : ℕ) (h : 0 < bufferSize) :
    needed ≤ double needed bufferSize h ∧ bufferSize ≤ double needed bufferSize h := by
  fun_induction double needed bufferSize h with
  | case1 bufferSize h hlt ih => omega
  | case2 bufferSize h hge => omega

/-- `realloc`, where the estimate asks for it. -/
def realloc (b : ListBuffer) (needed : ℕ) : ListBuffer :=
  have hpos : 0 < b.bufferSize := b.result.length.zero_le.trans_lt b.terminated
  { b with
    bufferSize := double needed b.bufferSize hpos
    terminated := b.terminated.trans_le (le_double needed b.bufferSize hpos).2 }

theorem bufferSize_realloc_of_le {b : ListBuffer} {needed : ℕ} (h : needed ≤ b.bufferSize) :
    (b.realloc needed).bufferSize = b.bufferSize := by
  rw [realloc]
  simp only
  rw [double, if_neg (by omega)]

/-- `strcat`, which must not run over the end of the allocation. -/
def strcat (b : ListBuffer) (text : Bytes) : Option ListBuffer :=
  if h : b.result.length + text.length + 1 ≤ b.bufferSize then
    some { b with
      result := b.result ++ text
      terminated := by
        rw [List.length_append]
        omega }
  else none

end ListBuffer

/-! ## The loop over the folder -/

/-- `"\nFile: "`. -/
def fileLabel : Bytes := [10, 70, 105, 108, 101, 58, 32]

/-- `"\n    Modification time: "`. -/
def modificationLabel : Bytes :=
  [10, 32, 32, 32, 32, 77, 111, 100, 105, 102, 105, 99, 97, 116, 105, 111, 110, 32, 116, 105, 109,
    101, 58, 32]

/-- `"\n          Access time: "`. -/
def accessLabel : Bytes :=
  [10, 32, 32, 32, 32, 32, 32, 32, 32, 32, 32, 65, 99, 99, 101, 115, 115, 32, 116, 105, 109, 101,
    58, 32]

/-- `"\n Change/creation time: "`. -/
def changeLabel : Bytes :=
  [10, 32, 67, 104, 97, 110, 103, 101, 47, 99, 114, 101, 97, 116, 105, 111, 110, 32, 116, 105, 109,
    101, 58, 32]

/-- `"\n\n"`. -/
def blankLines : Bytes := [10, 10]

namespace DirEntry

/-- `"."` and `".."`. -/
def isDots (entry : DirEntry) : Bool := entry.name = [46] ∨ entry.name = [46, 46]

/-- The times of an entry that is listed. -/
def listed (entry : DirEntry) : Option FileTimes := if entry.isDots then none else entry.times

/-- What is appended for a file, piece by piece. -/
def pieces (name : Bytes) (times : FileTimes) : List Bytes :=
  [fileLabel, name, modificationLabel, times.modTime, accessLabel, times.accTime, changeLabel,
    times.chgTime, blankLines]

/-- The estimate. -/
def needed (result name : Bytes) (times : FileTimes) : ℕ :=
  result.length + name.length + times.modTime.length + times.accTime.length +
    times.chgTime.length + 200

/-- The block of an entry. -/
def block (entry : DirEntry) : Option Bytes :=
  entry.listed.map fun times => (pieces entry.name times).flatten

/-- How many bytes the block of an entry has. -/
def size (entry : DirEntry) : Option ℕ :=
  entry.listed.map fun times =>
    81 + entry.name.length + times.modTime.length + times.accTime.length + times.chgTime.length

end DirEntry

/-- One round of the loop. -/
def ListBuffer.appendEntry (b : ListBuffer) (entry : DirEntry) : Option ListBuffer :=
  if entry.isDots then some b
  else
    match entry.times with
    | none => some b
    | some times =>
        (DirEntry.pieces entry.name times).foldlM ListBuffer.strcat
          (b.realloc (DirEntry.needed b.result entry.name times))

/-- `list_files` of a folder that opens; `none` where it would run over its buffer. -/
def listFiles (entries : List DirEntry) : Option Bytes :=
  (entries.foldlM ListBuffer.appendEntry .start).map ListBuffer.result

/-! ## What is in the buffer -/

theorem ListBuffer.of_strcat_eq_some {b b' : ListBuffer} {text : Bytes}
    (h : b.strcat text = some b') :
    b.result.length + text.length + 1 ≤ b.bufferSize ∧ b'.result = b.result ++ text ∧
      b'.bufferSize = b.bufferSize := by
  unfold strcat at h
  split at h
  case isTrue hfits =>
    obtain rfl := Option.some.inj h
    exact ⟨hfits, rfl, rfl⟩
  case isFalse => cases h

/-- Pieces that fit together are appended one after the other. -/
theorem ListBuffer.foldlM_strcat {pieces : List Bytes} {b : ListBuffer}
    (h : b.result.length + pieces.flatten.length + 1 ≤ b.bufferSize) :
    ∃ b', pieces.foldlM strcat b = some b' ∧ b'.result = b.result ++ pieces.flatten ∧
      b'.bufferSize = b.bufferSize := by
  induction pieces generalizing b with
  | nil => exact ⟨b, rfl, by simp, rfl⟩
  | cons piece pieces ih =>
      rw [List.flatten_cons, List.length_append] at h
      have hpiece : b.result.length + piece.length + 1 ≤ b.bufferSize := by omega
      have hrest : (b.result ++ piece).length + pieces.flatten.length + 1 ≤ b.bufferSize := by
        rw [List.length_append]
        omega
      obtain ⟨b', hfold, hresult, hsize⟩ :=
        ih (b := ⟨b.bufferSize, b.result ++ piece, by omega⟩) hrest
      refine ⟨b', ?_, ?_, hsize⟩
      · rw [List.foldlM_cons, strcat, dif_pos hpiece]
        exact hfold
      · rw [hresult, List.flatten_cons, List.append_assoc]

theorem DirEntry.length_pieces (name : Bytes) (times : FileTimes) :
    (pieces name times).flatten.length =
      81 + name.length + times.modTime.length + times.accTime.length + times.chgTime.length := by
  simp only [pieces, List.flatten_cons, List.flatten_nil, List.length_append, List.length_nil,
    fileLabel, modificationLabel, accessLabel, changeLabel, blankLines, List.length_cons]
  omega

/-- A round of the loop, for the entries that are listed and for the others. -/
theorem ListBuffer.appendEntry_eq_listed (b : ListBuffer) (entry : DirEntry) :
    b.appendEntry entry =
      match entry.listed with
      | none => some b
      | some times =>
          (DirEntry.pieces entry.name times).foldlM strcat
            (b.realloc (DirEntry.needed b.result entry.name times)) := by
  rw [appendEntry, DirEntry.listed]
  split
  · rfl
  · rfl

/-- The estimate leaves 119 bytes behind the block. -/
theorem DirEntry.needed_eq (result name : Bytes) (times : FileTimes) :
    needed result name times = result.length + (pieces name times).flatten.length + 119 := by
  rw [length_pieces, needed]
  omega

/-- The estimate is enough for the block and the end of the string. -/
theorem ListBuffer.appendEntry_eq (b : ListBuffer) (entry : DirEntry) :
    ∃ b', b.appendEntry entry = some b' ∧ b'.result = b.result ++ entry.block.getD [] := by
  rw [appendEntry_eq_listed, DirEntry.block]
  cases entry.listed with
  | none => exact ⟨b, rfl, by simp⟩
  | some times =>
      have hroom : DirEntry.needed b.result entry.name times ≤
          (b.realloc (DirEntry.needed b.result entry.name times)).bufferSize :=
        (le_double _ _ _).1
      have hfits : b.result.length + (DirEntry.pieces entry.name times).flatten.length + 1 ≤
          (b.realloc (DirEntry.needed b.result entry.name times)).bufferSize := by
        rw [DirEntry.needed_eq] at hroom ⊢
        omega
      obtain ⟨b', hfold, hresult, -⟩ :=
        foldlM_strcat (b := b.realloc (DirEntry.needed b.result entry.name times)) hfits
      exact ⟨b', hfold, hresult⟩

theorem flatten_blocks_cons (entry : DirEntry) (entries : List DirEntry) :
    ((entry :: entries).filterMap DirEntry.block).flatten =
      entry.block.getD [] ++ (entries.filterMap DirEntry.block).flatten := by
  rw [List.filterMap_cons]
  cases entry.block with
  | none => rfl
  | some block => rfl

/-- The listing is the blocks of the files, in the order of the folder. -/
theorem listFiles_eq (entries : List DirEntry) :
    listFiles entries = some (entries.filterMap DirEntry.block).flatten := by
  have hloop : ∀ b : ListBuffer, ∃ b', entries.foldlM ListBuffer.appendEntry b = some b' ∧
      b'.result = b.result ++ (entries.filterMap DirEntry.block).flatten := by
    induction entries with
    | nil => exact fun b => ⟨b, rfl, by simp⟩
    | cons entry entries ih =>
        intro b
        obtain ⟨b₁, hentry, hresult₁⟩ := b.appendEntry_eq entry
        obtain ⟨b', hfold, hresult⟩ := ih b₁
        refine ⟨b', ?_, ?_⟩
        · rw [List.foldlM_cons, hentry]
          exact hfold
        · rw [hresult, hresult₁, List.append_assoc, flatten_blocks_cons]
  obtain ⟨b', hfold, hresult⟩ := hloop .start
  rw [listFiles, hfold, Option.map_some, hresult]
  rfl

theorem length_block (entry : DirEntry) : entry.block.map List.length = entry.size := by
  simp only [DirEntry.block, DirEntry.size, Option.map_map]
  congr 1
  funext times
  exact DirEntry.length_pieces entry.name times

/-- The length of the listing is the sum over the files. -/
theorem length_listFiles {entries : List DirEntry} {files : Bytes}
    (h : listFiles entries = some files) :
    files.length = (entries.filterMap DirEntry.size).sum := by
  obtain rfl := Option.some.inj ((listFiles_eq entries).symm.trans h)
  rw [List.length_flatten, List.map_filterMap]
  congr 2
  funext entry
  exact length_block entry

end SyncServer
