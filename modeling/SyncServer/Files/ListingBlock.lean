import SyncServer.Files.Listing
import SyncServer.Library.Ending

/-! # The memory of a listing

`list_files` keeps its text in a block of the heap and counts its bytes as `size_t`. Each `strcat`
looks for the end of the text, and `realloc` leaves what it likes behind the old bytes. As long as
no estimate goes over 2^63, the block holds the text of the buffer in `Listing`.
-/

namespace SyncServer

open CText Ending

/-! ## The block -/

/-- How a call goes wrong on a block: no zero byte ends the text, or the text does not fit. -/
inductive BlockFault where
  | unterminated
  | overrun
  deriving DecidableEq, Repr

/-- `result` and `buffer_size`: a block of the heap and its size. -/
structure ListBlock where
  bufferSize : UInt64
  bytes : Bytes
  sized : bytes.length = bufferSize.toNat
  deriving DecidableEq, Repr

namespace ListBlock

/-- `malloc(4096)` and an empty string; `fresh` is what the heap holds in a new block. -/
def start (fresh : UInt64 → ℕ → UInt8) : ListBlock :=
  ⟨4096, ((List.range 4096).map (fresh 4096)).set 0 0, by simp⟩

/-- `realloc` to a size that is not smaller: the old bytes and fresh ones behind them. -/
def realloc (fresh : UInt64 → ℕ → UInt8) (b : ListBlock) (size : UInt64) : ListBlock :=
  ⟨size, (List.range size.toNat).map fun i => b.bytes.getD i (fresh size i), by simp⟩

def strlen (b : ListBlock) : Ending BlockFault ℕ :=
  if 0 ∈ b.bytes then done (cString b.bytes).length else faults .unterminated

/-- `strcat`: the text and its zero byte go over the zero byte that ended the string. -/
def strcat (b : ListBlock) (text : Bytes) : Ending BlockFault ListBlock := do
  let length ← b.strlen
  if h : length + text.length + 1 ≤ b.bytes.length then
    done { b with
      bytes := b.bytes.take length ++ text ++ 0 :: b.bytes.drop (length + text.length + 1)
      sized := by
        simp only [List.length_append, List.length_take, List.length_cons, List.length_drop]
        have := b.sized
        omega }
  else faults .overrun

/-- The doubling loop, which may go on for ever; `fuel` bounds its rounds. -/
def double : ℕ → UInt64 → UInt64 → Ending BlockFault UInt64
  | 0, _, _ => waits
  | fuel + 1, needed, bufferSize =>
      if needed > bufferSize then double fuel needed (bufferSize * 2) else done bufferSize

/-- The estimate for an entry behind a text of the given length. -/
def needed (length : ℕ) (name : Bytes) (times : FileTimes) : UInt64 :=
  .ofNat length + .ofNat name.length + .ofNat times.modTime.length +
    .ofNat times.accTime.length + .ofNat times.chgTime.length + 200

/-- A larger block where the estimate asks for one. -/
def enlarge (fuel : ℕ) (fresh : UInt64 → ℕ → UInt8) (b : ListBlock) (name : Bytes)
    (times : FileTimes) : Ending BlockFault ListBlock := do
  let length ← b.strlen
  if needed length name times > b.bufferSize then
    let bufferSize ← double fuel (needed length name times) b.bufferSize
    done (b.realloc fresh bufferSize)
  else done b

/-- One round of the loop. -/
def appendEntry (fuel : ℕ) (fresh : UInt64 → ℕ → UInt8) (b : ListBlock) (entry : DirEntry) :
    Ending BlockFault ListBlock :=
  match entry.listed with
  | none => done b
  | some times => do
      let b ← b.enlarge fuel fresh entry.name times
      (DirEntry.pieces entry.name times).foldlM strcat b

/-- `list_files` of a folder that opens, where `malloc` and `realloc` succeed. -/
def listFiles (fuel : ℕ) (fresh : UInt64 → ℕ → UInt8) (entries : List DirEntry) :
    Ending BlockFault ListBlock :=
  entries.foldlM (appendEntry fuel fresh) (start fresh)

/-- The block before one of the `strcat`s for an entry: the entries in front of it are listed and
the given pieces of its own block are appended. -/
def beforeStrcat (fuel : ℕ) (fresh : UInt64 → ℕ → UInt8) (listed : List DirEntry) (name : Bytes)
    (times : FileTimes) (appended : List Bytes) : Ending BlockFault ListBlock := do
  let b ← listFiles fuel fresh listed
  let b ← b.enlarge fuel fresh name times
  appended.foldlM strcat b

/-! ## The text of the block -/

/-- The block has the size of the buffer and the text of the buffer with a zero behind it. -/
structure Holds (b : ListBlock) (buffer : ListBuffer) : Prop where
  size_eq : b.bufferSize.toNat = buffer.bufferSize
  text : buffer.result ++ [0] <+: b.bytes
  zero_not_mem : 0 ∉ buffer.result

theorem Holds.cString_eq {b : ListBlock} {buffer : ListBuffer} (h : b.Holds buffer) :
    cString b.bytes = buffer.result := by
  obtain ⟨rest, hbytes⟩ := h.text
  rw [← hbytes, List.append_assoc]
  exact (cString_append_eq_iff h.zero_not_mem 0 rest).mpr rfl

theorem Holds.strlen_eq {b : ListBlock} {buffer : ListBuffer} (h : b.Holds buffer) :
    b.strlen = done buffer.result.length := by
  have hzero : 0 ∈ b.bytes := h.text.subset (by simp)
  rw [strlen, h.cString_eq, if_pos hzero]

theorem start_holds (fresh : UInt64 → ℕ → UInt8) : (start fresh).Holds .start := by
  have hne : (List.range 4096).map (fresh 4096) ≠ [] := by simp
  obtain ⟨c, rest, hfresh⟩ := List.exists_cons_of_ne_nil hne
  refine ⟨by simp [start, ListBuffer.start], ⟨rest, ?_⟩, by simp [ListBuffer.start]⟩
  simp [start, hfresh, ListBuffer.start]

/-- A piece of text goes into the block as it goes into the buffer. -/
theorem strcat_holds {b : ListBlock} {buffer buffer' : ListBuffer} {text : Bytes}
    (h : b.Holds buffer) (hzero : 0 ∉ text) (hstrcat : buffer.strcat text = some buffer') :
    ∃ b', b.strcat text = done b' ∧ b'.Holds buffer' := by
  obtain ⟨hfits, hresult, hsize⟩ := ListBuffer.of_strcat_eq_some hstrcat
  have hfits' : buffer.result.length + text.length + 1 ≤ b.bytes.length := by
    rw [b.sized, h.size_eq]
    exact hfits
  have hfront : b.bytes.take buffer.result.length = buffer.result := by
    obtain ⟨rest, hbytes⟩ := h.text
    rw [← hbytes, List.append_assoc, List.take_left]
  rw [strcat, h.strlen_eq, bind_done, dif_pos hfits']
  refine ⟨_, rfl, h.size_eq.trans hsize.symm, ?_, ?_⟩
  · change buffer'.result ++ [0] <+: b.bytes.take buffer.result.length ++ text ++ 0 :: _
    rw [hfront, hresult]
    exact ⟨_, List.append_assoc _ [0] _⟩
  · simp [hresult, h.zero_not_mem, hzero]

/-- A larger block holds the old bytes. -/
theorem realloc_holds (fresh : UInt64 → ℕ → UInt8) {b : ListBlock} {buffer : ListBuffer}
    {needed : ℕ} {size : UInt64} (h : b.Holds buffer)
    (hsize : size.toNat = (buffer.realloc needed).bufferSize) :
    (b.realloc fresh size).Holds (buffer.realloc needed) := by
  have hpos : 0 < buffer.bufferSize := buffer.result.length.zero_le.trans_lt buffer.terminated
  have hle : b.bytes.length ≤ size.toNat := by
    rw [b.sized, h.size_eq, hsize]
    exact (ListBuffer.le_double needed buffer.bufferSize hpos).2
  have hold : b.bytes <+: (b.realloc fresh size).bytes := by
    rw [List.prefix_iff_getElem?]
    intro i hi
    have hi' : i < size.toNat := hi.trans_le hle
    simp [realloc, hi, hi']
  exact ⟨hsize, h.text.trans hold, h.zero_not_mem⟩

/-! ## The size of the block -/

/-- Below 2^63 no doubling wraps, and 63 of them reach every estimate. -/
theorem double_eq {needed bufferSize : UInt64} {fuel : ℕ} (hneeded : needed.toNat ≤ 2 ^ 63)
    (hpos : 0 < bufferSize.toNat) (hfuel : needed.toNat ≤ bufferSize.toNat * 2 ^ fuel) :
    ∃ size, double (fuel + 1) needed bufferSize = done size ∧
      size.toNat = ListBuffer.double needed.toNat bufferSize.toNat hpos := by
  induction fuel generalizing bufferSize with
  | zero =>
      have hle : ¬needed > bufferSize := by
        rw [gt_iff_lt, UInt64.lt_iff_toNat_lt]
        omega
      have hle' : ¬needed.toNat > bufferSize.toNat := by omega
      refine ⟨bufferSize, by rw [double, if_neg hle], ?_⟩
      rw [ListBuffer.double, if_neg hle']
  | succ fuel ih =>
      by_cases hlt : needed > bufferSize
      · have hlt' : bufferSize.toNat < needed.toNat := UInt64.lt_iff_toNat_lt.mp hlt
        have htwice : (bufferSize * 2).toNat = bufferSize.toNat * 2 := by
          rw [UInt64.toNat_mul]
          exact Nat.mod_eq_of_lt (by simp; omega)
        have hreach : needed.toNat ≤ (bufferSize * 2).toNat * 2 ^ fuel := by
          rw [htwice, Nat.mul_assoc, ← Nat.pow_succ']
          exact hfuel
        obtain ⟨size, hdouble, hsize⟩ := ih (by omega) hreach
        refine ⟨size, by rw [double, if_pos hlt, hdouble], ?_⟩
        rw [ListBuffer.double, if_pos hlt', hsize]
        simp only [htwice]
      · have hle : ¬needed.toNat > bufferSize.toNat := fun h => hlt (UInt64.lt_iff_toNat_lt.mpr h)
        refine ⟨bufferSize, by rw [double, if_neg hlt], ?_⟩
        rw [ListBuffer.double, if_neg hle]

/-- The estimate does not wrap. -/
theorem needed_toNat {result name : Bytes} {times : FileTimes}
    (h : DirEntry.needed result name times ≤ 2 ^ 63) :
    (needed result.length name times).toNat = DirEntry.needed result name times := by
  simp only [DirEntry.needed] at h ⊢
  simp only [needed, UInt64.toNat_add, UInt64.toNat_ofNat', UInt64.toNat_ofNat]
  omega

/-- The block is enlarged as the buffer is. -/
theorem enlarge_holds {fuel : ℕ} (hfuel : 64 ≤ fuel) (fresh : UInt64 → ℕ → UInt8) {b : ListBlock}
    {buffer : ListBuffer} {name : Bytes} {times : FileTimes} (h : b.Holds buffer)
    (hneeded : DirEntry.needed buffer.result name times ≤ 2 ^ 63) :
    ∃ b', b.enlarge fuel fresh name times = done b' ∧
      b'.Holds (buffer.realloc (DirEntry.needed buffer.result name times)) := by
  have hestimate := needed_toNat hneeded
  rw [← hestimate] at hneeded ⊢
  rw [enlarge, h.strlen_eq, bind_done]
  by_cases hlt : needed buffer.result.length name times > b.bufferSize
  · obtain ⟨rounds, rfl⟩ := Nat.exists_eq_add_of_le' (Nat.one_le_of_lt hfuel)
    have hpos : 0 < b.bufferSize.toNat := by
      rw [h.size_eq]
      exact buffer.result.length.zero_le.trans_lt buffer.terminated
    have hreach : (needed buffer.result.length name times).toNat ≤
        b.bufferSize.toNat * 2 ^ rounds :=
      calc
        _ ≤ 2 ^ 63 := hneeded
        _ ≤ 2 ^ rounds := Nat.pow_le_pow_right (by decide) (by omega)
        _ ≤ b.bufferSize.toNat * 2 ^ rounds := Nat.le_mul_of_pos_left _ hpos
    obtain ⟨size, hdouble, hsize⟩ := double_eq hneeded hpos hreach
    refine ⟨b.realloc fresh size, ?_, realloc_holds fresh h ?_⟩
    · rw [if_pos hlt, hdouble, bind_done]
    · simp only [hsize, ListBuffer.realloc, h.size_eq]
  · have hle : (needed buffer.result.length name times).toNat ≤ buffer.bufferSize := by
      rw [← h.size_eq]
      exact UInt64.le_iff_toNat_le.mp (UInt64.not_lt.mp hlt)
    refine ⟨b, by rw [if_neg hlt], ?_, h.text, h.zero_not_mem⟩
    rw [ListBuffer.bufferSize_realloc_of_le hle, h.size_eq]

/-! ## The loop -/

theorem foldlM_strcat_holds {pieces : List Bytes} {b : ListBlock} {buffer buffer' : ListBuffer}
    (h : b.Holds buffer) (hzero : ∀ piece ∈ pieces, 0 ∉ piece)
    (hfold : pieces.foldlM ListBuffer.strcat buffer = some buffer') :
    ∃ b', pieces.foldlM strcat b = done b' ∧ b'.Holds buffer' := by
  induction pieces generalizing b buffer with
  | nil =>
      obtain rfl := Option.some.inj hfold
      exact ⟨b, rfl, h⟩
  | cons piece pieces ih =>
      rw [List.foldlM_cons] at hfold
      obtain ⟨buffer₁, hpiece, hrest⟩ := Option.bind_eq_some_iff.mp hfold
      obtain ⟨b₁, hb₁, hholds⟩ := strcat_holds h (hzero piece List.mem_cons_self) hpiece
      obtain ⟨b', hb', hholds'⟩ :=
        ih hholds (fun p hp => hzero p (List.mem_cons_of_mem _ hp)) hrest
      exact ⟨b', by rw [List.foldlM_cons, hb₁, bind_done, hb'], hholds'⟩

end ListBlock

/-- The name and the times are C strings. -/
structure DirEntry.IsText (entry : DirEntry) : Prop where
  name : 0 ∉ entry.name
  times : ∀ times ∈ entry.times, 0 ∉ times.modTime ∧ 0 ∉ times.accTime ∧ 0 ∉ times.chgTime

theorem DirEntry.IsText.zero_not_mem {entry : DirEntry} (h : entry.IsText) {times : FileTimes}
    (hlisted : entry.listed = some times) : ∀ piece ∈ pieces entry.name times, 0 ∉ piece := by
  have htimes : entry.times = some times := by
    unfold listed at hlisted
    split at hlisted
    · cases hlisted
    · exact hlisted
  obtain ⟨hmod, hacc, hchg⟩ := h.times times htimes
  have hname := h.name
  simp only [pieces, List.forall_mem_cons]
  refine ⟨by decide, hname, by decide, hmod, by decide, hacc, by decide, hchg, by decide, ?_⟩
  simp

namespace ListBlock

theorem needed_of_listed {result : Bytes} {entry : DirEntry} {times : FileTimes}
    (hlisted : entry.listed = some times) :
    DirEntry.needed result entry.name times =
      (result ++ entry.block.getD []).length + 119 := by
  rw [DirEntry.needed_eq, DirEntry.block, hlisted, List.length_append]
  rfl

theorem appendEntry_holds {fuel : ℕ} (hfuel : 64 ≤ fuel) (fresh : UInt64 → ℕ → UInt8)
    {b : ListBlock} {buffer buffer' : ListBuffer} {entry : DirEntry} (h : b.Holds buffer)
    (htext : entry.IsText) (hsize : (buffer.result ++ entry.block.getD []).length + 119 ≤ 2 ^ 63)
    (hentry : buffer.appendEntry entry = some buffer') :
    ∃ b', b.appendEntry fuel fresh entry = done b' ∧ b'.Holds buffer' := by
  rw [ListBuffer.appendEntry_eq_listed] at hentry
  rw [appendEntry]
  cases hlisted : entry.listed with
  | none =>
      rw [hlisted] at hentry
      obtain rfl := Option.some.inj hentry
      exact ⟨b, rfl, h⟩
  | some times =>
      rw [hlisted] at hentry
      rw [← needed_of_listed hlisted] at hsize
      obtain ⟨b₁, henlarge, hholds⟩ := enlarge_holds hfuel fresh h hsize
      obtain ⟨b', hfold, hholds'⟩ :=
        foldlM_strcat_holds hholds (htext.zero_not_mem hlisted) hentry
      exact ⟨b', by simp only [henlarge, bind_done, hfold], hholds'⟩

/-- The blocks of the entries are appended to the text, in the order of the folder. -/
theorem foldlM_appendEntry_holds {fuel : ℕ} (hfuel : 64 ≤ fuel) (fresh : UInt64 → ℕ → UInt8)
    {entries : List DirEntry} {b : ListBlock} {buffer : ListBuffer} (h : b.Holds buffer)
    (htext : ∀ entry ∈ entries, entry.IsText)
    (hsize : (buffer.result ++ (entries.filterMap DirEntry.block).flatten).length + 119 ≤
      2 ^ 63) :
    ∃ b' buffer', entries.foldlM (appendEntry fuel fresh) b = done b' ∧ b'.Holds buffer' ∧
      buffer'.result = buffer.result ++ (entries.filterMap DirEntry.block).flatten := by
  induction entries generalizing b buffer with
  | nil => exact ⟨b, buffer, rfl, h, by simp⟩
  | cons entry entries ih =>
      rw [flatten_blocks_cons, ← List.append_assoc] at hsize ⊢
      obtain ⟨buffer₁, hentry, hresult₁⟩ := buffer.appendEntry_eq entry
      have hsize₁ : (buffer.result ++ entry.block.getD []).length + 119 ≤ 2 ^ 63 := by
        rw [List.length_append] at hsize
        omega
      obtain ⟨b₁, hb₁, hholds⟩ :=
        appendEntry_holds hfuel fresh h (htext entry List.mem_cons_self) hsize₁ hentry
      rw [← hresult₁] at hsize ⊢
      obtain ⟨b', buffer', hfold, hend⟩ :=
        ih hholds (fun e he => htext e (List.mem_cons_of_mem _ he)) hsize
      exact ⟨b', buffer', by rw [List.foldlM_cons, hb₁, bind_done, hfold], hend⟩

/-- The block before a `strcat` has room for the piece and its zero byte. -/
theorem beforeStrcat_fits {fuel : ℕ} (hfuel : 64 ≤ fuel) (fresh : UInt64 → ℕ → UInt8)
    {before : List DirEntry} {entry : DirEntry} {times : FileTimes} {pre post : List Bytes}
    {text : Bytes} (htext : ∀ e ∈ before, e.IsText) (hentry : entry.IsText)
    (hlisted : entry.listed = some times)
    (hpieces : DirEntry.pieces entry.name times = pre ++ text :: post)
    (hsize : ((before.filterMap DirEntry.block).flatten ++ entry.block.getD []).length + 119 ≤
      2 ^ 63) :
    ∃ b, beforeStrcat fuel fresh before entry.name times pre = done b ∧
      (cString b.bytes).length + text.length + 1 ≤ b.bufferSize.toNat := by
  have hbefore : (ListBuffer.start.result ++ (before.filterMap DirEntry.block).flatten).length +
      119 ≤ 2 ^ 63 := by
    rw [List.length_append] at hsize
    change ((before.filterMap DirEntry.block).flatten).length + 119 ≤ 2 ^ 63
    omega
  obtain ⟨b₁, buffer₁, hloop, hholds₁, hresult₁⟩ :=
    foldlM_appendEntry_holds hfuel fresh (start_holds fresh) htext hbefore
  have hstart : buffer₁.result = (before.filterMap DirEntry.block).flatten := hresult₁
  rw [← hstart, ← needed_of_listed hlisted] at hsize
  obtain ⟨b₂, henlarge, hholds₂⟩ := enlarge_holds hfuel fresh hholds₁ hsize
  obtain ⟨buffer', hround, -⟩ := buffer₁.appendEntry_eq entry
  rw [ListBuffer.appendEntry_eq_listed, hlisted] at hround
  simp only [hpieces, List.foldlM_append, List.foldlM_cons] at hround
  obtain ⟨buffer₃, hpre, hrest⟩ := Option.bind_eq_some_iff.mp hround
  obtain ⟨buffer₄, hstrcat, -⟩ := Option.bind_eq_some_iff.mp hrest
  have hzero : ∀ piece ∈ pre, 0 ∉ piece := fun piece hpiece =>
    hentry.zero_not_mem hlisted piece (hpieces ▸ List.mem_append_left _ hpiece)
  obtain ⟨b₃, hfold, hholds₃⟩ := foldlM_strcat_holds hholds₂ hzero hpre
  refine ⟨b₃, ?_, ?_⟩
  · rw [beforeStrcat, listFiles, hloop, bind_done, henlarge, bind_done, hfold]
  · rw [hholds₃.cString_eq, hholds₃.size_eq]
    exact (ListBuffer.of_strcat_eq_some hstrcat).1

/-- What is returned is the text of the buffer. -/
theorem listFiles_refines {fuel : ℕ} (hfuel : 64 ≤ fuel) (fresh : UInt64 → ℕ → UInt8)
    {entries : List DirEntry} (htext : ∀ entry ∈ entries, entry.IsText)
    (hsize : (entries.filterMap DirEntry.block).flatten.length + 119 ≤ 2 ^ 63) :
    ∃ b, listFiles fuel fresh entries = done b ∧ 0 ∈ b.bytes ∧
      SyncServer.listFiles entries = some (cString b.bytes) := by
  obtain ⟨b, buffer, hloop, hholds, hresult⟩ :=
    foldlM_appendEntry_holds hfuel fresh (start_holds fresh) htext hsize
  refine ⟨b, hloop, hholds.text.subset (by simp), ?_⟩
  rw [listFiles_eq, hholds.cString_eq, hresult]
  rfl

/-- `list_files` returns the blocks of the listed entries in the order of the folder, and no
`strcat` on the way goes over the end of the block. The largest estimate is 119 bytes more than the
text. -/
theorem listFiles_spec {fuel : ℕ} (hfuel : 64 ≤ fuel) (fresh : UInt64 → ℕ → UInt8)
    {entries : List DirEntry} (htext : ∀ entry ∈ entries, entry.IsText)
    (hsize : (entries.filterMap DirEntry.block).flatten.length + 119 ≤ 2 ^ 63) :
    (∃ b, listFiles fuel fresh entries = done b ∧ 0 ∈ b.bytes ∧
      cString b.bytes = (entries.filterMap DirEntry.block).flatten) ∧
    ∀ before entry after times pre text post, entries = before ++ entry :: after →
      entry.listed = some times → DirEntry.pieces entry.name times = pre ++ text :: post →
      ∃ b, beforeStrcat fuel fresh before entry.name times pre = done b ∧
        (cString b.bytes).length + text.length + 1 ≤ b.bufferSize.toNat := by
  constructor
  · obtain ⟨b, hloop, hend, hlisting⟩ := listFiles_refines hfuel fresh htext hsize
    rw [listFiles_eq] at hlisting
    exact ⟨b, hloop, hend, (Option.some.inj hlisting).symm⟩
  · rintro before entry after times pre text post rfl hlisted hpieces
    rw [List.filterMap_append, List.flatten_append, flatten_blocks_cons, ← List.append_assoc,
      List.length_append] at hsize
    exact beforeStrcat_fits hfuel fresh (fun e he => htext e (List.mem_append_left _ he))
      (htext entry (List.mem_append_right _ List.mem_cons_self)) hlisted hpieces (by omega)

/-- A folder of a file and of one that `stat` refuses, in a heap that is full of other bytes. -/
theorem listFiles_spec_oneFile :
    ∃ b, listFiles 64 (fun _ _ => 170) [⟨[46], none⟩, ⟨[97], some ⟨[49], [50], [51]⟩⟩,
        ⟨[98], none⟩] = done b ∧
      cString b.bytes = (DirEntry.pieces [97] ⟨[49], [50], [51]⟩).flatten := by
  have htext : ∀ entry ∈ [(⟨[46], none⟩ : DirEntry), ⟨[97], some ⟨[49], [50], [51]⟩⟩,
      ⟨[98], none⟩], entry.IsText := by
    intro entry h
    simp only [List.mem_cons, List.not_mem_nil, or_false] at h
    rcases h with rfl | rfl | rfl
    · exact ⟨by decide, by simp⟩
    · exact ⟨by decide, by simp⟩
    · exact ⟨by decide, by simp⟩
  obtain ⟨⟨b, hb, -, hlisting⟩, -⟩ :=
    listFiles_spec (le_refl 64) (fun _ _ => 170) htext (by decide)
  exact ⟨b, hb, hlisting⟩

end ListBlock

end SyncServer
