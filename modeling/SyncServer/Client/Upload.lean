import SyncServer.Files.Transfer
import SyncServer.Library.PathNames

/-! # Uploads

The command `upload` copies a file into the folder that the watcher looks at, under its last name.
The copy is made block by block, after the destination was emptied.
-/

namespace SyncServer

open CText Ending PathNames

/-- `sizeof(buffer)` of `copy_file`. -/
def copyBufferSize : ℕ := 4096

/-- `build_destination_path`. -/
def buildDestinationPath (syncDir source : Bytes) : Bytes := syncDir ++ slash :: basename source

section

variable {Path : Type} [DecidableEq Path]

/-- `fread` at an offset; of a folder nothing is read. -/
def readBlock (disk : Disk Path) (path : Path) (offset : ℕ) : Bytes :=
  (((disk path).getD []).drop offset).take copyBufferSize

/-- The loop of `copy_file`. Both files may be the same. -/
def copyLoop (source dest : Path) : ℕ → ℕ → Disk Path → Ending Fault (Disk Path)
  | 0, _, _ => waits
  | fuel + 1, offset, disk =>
      let block := readBlock disk source offset
      if block = [] then done disk
      else copyLoop source dest fuel (offset + block.length)
        (Function.update disk dest (some ((disk dest).getD [] ++ block)))

/-- `copy_file`, with what `fopen` answers for the two paths, and whether it succeeds. -/
def copyFile (readable writable : Bool) (fuel : ℕ) (source dest : Path) (disk : Disk Path) :
    Ending Fault (Disk Path × Bool) :=
  if readable = false then done (disk, false)
  else if writable = false then done (disk, false)
  else do
    -- `fopen(.., "wb")`
    let disk ← copyLoop source dest fuel 0 (Function.update disk dest (some []))
    done (disk, true)

/-! ## The copy -/

/-- What is written has been read, and the rest of the source is still to come. -/
theorem copyLoop_spec {source dest : Path} (hne : source ≠ dest) {content : Bytes}
    {fuel offset : ℕ} {disk : Disk Path} (hsource : (disk source).getD [] = content)
    (hdest : disk dest = some (content.take offset)) (hoffset : offset ≤ content.length)
    (hfuel : content.length - offset < fuel) :
    copyLoop source dest fuel offset disk =
      done (Function.update disk dest (some content)) := by
  induction fuel generalizing offset disk with
  | zero => omega
  | succ fuel ih =>
      rw [copyLoop]
      have hblock : readBlock disk source offset =
          (content.drop offset).take copyBufferSize := by rw [readBlock, hsource]
      have hlength : (readBlock disk source offset).length =
          min copyBufferSize (content.length - offset) := by
        rw [hblock, List.length_take, List.length_drop]
      by_cases hnil : readBlock disk source offset = []
      · -- the end of the source
        have hend : content.length ≤ offset := by
          rw [hnil, List.length_nil, copyBufferSize] at hlength
          omega
        rw [if_pos hnil]
        rw [List.take_of_length_le hend] at hdest
        rw [← hdest, Function.update_eq_self]
      · have hpos := List.length_pos_iff.mpr hnil
        have hwritten : content.take offset ++ readBlock disk source offset =
            content.take (offset + (readBlock disk source offset).length) := by
          rw [List.take_add, hblock, List.length_take, ← List.take_eq_take_min]
        rw [if_neg hnil, hdest, Option.getD_some, hwritten]
        rw [ih (by rwa [Function.update_of_ne hne]) (Function.update_self ..) (by omega) (by omega),
          Function.update_idem]

/-- A file that is copied onto itself was emptied before a byte of it is read. -/
theorem copyLoop_self {path : Path} {fuel : ℕ} (hfuel : 0 < fuel) (disk : Disk Path) :
    copyLoop path path fuel 0 (Function.update disk path (some [])) =
      done (Function.update disk path (some [])) := by
  obtain ⟨n, rfl⟩ := Nat.exists_eq_succ_of_ne_zero hfuel.ne'
  simp [copyLoop, readBlock]

/-- The content that the destination gets. -/
def copied (source dest : Path) (disk : Disk Path) : Bytes :=
  if source = dest then [] else (disk source).getD []

theorem copyFile_spec (readable writable : Bool) {fuel : ℕ} (source dest : Path)
    (disk : Disk Path) (hfuel : ((disk source).getD []).length < fuel) :
    copyFile readable writable fuel source dest disk =
      if readable = true ∧ writable = true then
        done (Function.update disk dest (some (copied source dest disk)), true)
      else done (disk, false) := by
  cases readable with
  | false => rfl
  | true =>
      cases writable with
      | false => rfl
      | true =>
          simp only [copyFile, Bool.true_eq_false, if_false, and_self, if_true]
          by_cases heq : source = dest
          · subst heq
            rw [copyLoop_self (by omega), copied, if_pos rfl]
            rfl
          · have hloop := @copyLoop_spec _ _ source dest heq ((disk source).getD []) fuel 0
              (Function.update disk dest (some [])) (by rw [Function.update_of_ne heq]) (by simp)
              (Nat.zero_le _) (by simpa using hfuel)
            rw [hloop, Function.update_idem, copied, if_neg heq]
            rfl

end

/-! ## The command -/

section

variable (readable : Bytes → Bool) (access : FileAccess (List Bytes)) (cwd : List Bytes)

/-- `upload`; `readable` is whether `fopen(.., "rb")` succeeds for a path name. -/
def upload (fuel : ℕ) (syncDir source : Bytes) (disk : Disk (List Bytes)) :
    Ending Fault (Disk (List Bytes) × Bool) :=
  let dest := resolve cwd (buildDestinationPath syncDir source)
  copyFile (readable source) (access.opens dest) fuel (resolve cwd source) dest disk

/-- An upload writes one file at most, and that lies in the synchronized folder under the last name
of the source. It gets the content of the source, unless it is the source itself, which is lost. A
last name that is none, as `..` or a slash, is refused if a folder cannot be opened for writing. -/
theorem upload_spec {fuel : ℕ} {syncDir source : Bytes} {disk : Disk (List Bytes)}
    (hsync : syncDir ≠ []) (hfolder : access.opens (resolve cwd syncDir) = false)
    (hparent : access.opens (resolve cwd syncDir).dropLast = false)
    (hfuel : ((disk (resolve cwd source)).getD []).length < fuel) :
    upload readable access cwd fuel syncDir source disk =
      if readable source = true ∧ IsComponent (basename source) ∧
          access.opens (resolve cwd syncDir ++ [basename source]) = true then
        done (Function.update disk (resolve cwd syncDir ++ [basename source])
          (some (copied (resolve cwd source) (resolve cwd syncDir ++ [basename source]) disk)),
          true)
      else done (disk, false) := by
  rw [upload, copyFile_spec _ _ _ _ _ hfuel, buildDestinationPath]
  rcases resolve_append_basename hsync cwd source with ⟨hcomponent, hdest⟩ | ⟨hcomponent, hdest⟩
  · simp only [hdest, hcomponent, true_and]
  · have hclosed : access.opens (resolve cwd (syncDir ++ slash :: basename source)) = false := by
      rcases hdest with hdest | hdest
      · rw [hdest, hfolder]
      · rw [hdest, hparent]
    simp [hclosed, hcomponent]

end

/-- The files below the folder `s`. -/
def belowFolder : FileAccess (List Bytes) := { FileAccess.granted with opens := (·.length = 2) }

/-- A file that lies in the synchronized folder is emptied by its own upload. -/
theorem upload_spec_of_own :
    upload (fun _ => true) belowFolder [] 3 [47, 115] [47, 115, 47, 102]
        (fun path => if path = [[115], [102]] then some [1, 2] else none) =
      done (Function.update (fun path => if path = [[115], [102]] then some [1, 2] else none)
        [[115], [102]] (some []), true) :=
  (upload_spec (fun _ => true) belowFolder [] (by decide) (by decide) (by decide)
    (by decide)).trans (by rw [if_pos (by decide)]; rfl)

end SyncServer
