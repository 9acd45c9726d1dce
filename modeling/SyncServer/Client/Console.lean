import SyncServer.Library.CText
import SyncServer.Library.Pieces
import SyncServer.Library.Transition

/-! # The commands of the console

The console thread asks the kernel whether standard input has data, and takes a line through a
buffer of the C library that the kernel does not know of. A line is scanned for two words, and the
first of them is the name of a command.
-/

namespace SyncServer

open CText Pieces Transition

/-! ## A line -/

def newline : UInt8 := 10

def maxInputSize : ℕ := 128
def maxCommand : ℕ := 13
def maxArgument : ℕ := 115

/-- `fgets` stops after a newline, or when its array is full. -/
def endsLine (line : Bytes) : Bool :=
  line.getLast? = some newline || line.length + 1 = maxInputSize

/-- `%ns`: white space is skipped, and at most `n` bytes of the word after it are taken. -/
def scanWord (n : ℕ) (s : Bytes) : Bytes × Bytes :=
  let s := s.dropWhile isSpace
  let word := (s.takeWhile fun c => !isSpace c).take n
  (word, s.drop word.length)

/-- `get_command`: the two words of a line, as `sscanf(input, "%12s %114s", command, arg)` leaves
them in arrays that were empty. -/
def getCommand (line : Bytes) : Bytes × Bytes :=
  let input := (cString line).takeWhile (· != newline)
  let command := scanWord (maxCommand - 1) input
  (command.1, (scanWord (maxArgument - 1) command.2).1)

/-- What the console does for a line. -/
inductive ConsoleAction where
  | exit
  | getSyncDir
  | listClient
  | listServer
  | upload (path : Bytes)
  | delete (path : Bytes)
  | download (path : Bytes)
  | unknown (command : Bytes)
  deriving DecidableEq, Repr

namespace ConsoleAction

/-- The first word, as the user types it. -/
def command : ConsoleAction → Bytes
  -- `exit`
  | exit => [101, 120, 105, 116]
  -- `get_sync_dir`
  | getSyncDir => [103, 101, 116, 95, 115, 121, 110, 99, 95, 100, 105, 114]
  -- `list_client`
  | listClient => [108, 105, 115, 116, 95, 99, 108, 105, 101, 110, 116]
  -- `list_server`
  | listServer => [108, 105, 115, 116, 95, 115, 101, 114, 118, 101, 114]
  -- `upload`
  | upload _ => [117, 112, 108, 111, 97, 100]
  -- `delete`
  | delete _ => [100, 101, 108, 101, 116, 101]
  -- `download`
  | download _ => [100, 111, 119, 110, 108, 111, 97, 100]
  | unknown command => command

def path : ConsoleAction → Bytes
  | upload path | delete path | download path => path
  | _ => []

end ConsoleAction

/-- The comparisons of `start_console_input_thread`. -/
def dispatch (command path : Bytes) : ConsoleAction :=
  if command = ConsoleAction.exit.command then .exit
  else if command = ConsoleAction.getSyncDir.command then .getSyncDir
  else if command = ConsoleAction.listClient.command then .listClient
  else if command = ConsoleAction.listServer.command then .listServer
  else if command = (ConsoleAction.upload []).command then .upload path
  else if command = (ConsoleAction.delete []).command then .delete path
  else if command = (ConsoleAction.download []).command then .download path
  else .unknown command

def consoleAction (line : Bytes) : ConsoleAction := dispatch (getCommand line).1 (getCommand line).2

/-! ### The arrays -/

theorem length_scanWord_le (n : ℕ) (s : Bytes) : (scanWord n s).1.length ≤ n := by
  simp only [scanWord, List.length_take]
  exact Nat.min_le_left ..

/-- The words fit with the zero that `sscanf` puts behind them. -/
theorem length_getCommand_lt (line : Bytes) :
    (getCommand line).1.length < maxCommand ∧ (getCommand line).2.length < maxArgument := by
  constructor
  · exact Nat.lt_succ_of_le (length_scanWord_le ..)
  · exact Nat.lt_succ_of_le (length_scanWord_le ..)

/-! ### Lines that are typed -/

/-- Bytes that `sscanf` takes for a word. -/
def IsWord (word : Bytes) : Prop := ∀ c ∈ word, isSpace c = false ∧ c ≠ 0

instance (word : Bytes) : Decidable (IsWord word) :=
  List.decidableBAll (fun c => isSpace c = false ∧ c ≠ 0) word

def space : UInt8 := 32

/-- The line of an action. -/
def commandLine (action : ConsoleAction) : Bytes :=
  action.command ++ ((if action.path = [] then [] else space :: action.path) ++ [newline])

/-- The user can type the action: the path is one word that fits, and a word that is no command is
not one of the commands. -/
def ConsoleAction.Typable : ConsoleAction → Prop
  | .upload path | .delete path | .download path => IsWord path ∧ path.length < maxArgument
  | .unknown command => IsWord command ∧ command ≠ [] ∧ command.length < maxCommand ∧
      dispatch command [] = .unknown command
  | _ => True

instance : (action : ConsoleAction) → Decidable action.Typable
  | .upload _ | .delete _ | .download _ | .unknown _ => inferInstanceAs (Decidable (_ ∧ _))
  | .exit | .getSyncDir | .listClient | .listServer => inferInstanceAs (Decidable True)

theorem scanWord_append {n : ℕ} {word t : Bytes} (hword : IsWord word) (hn : word.length ≤ n)
    (hne : word ≠ []) (ht : Stops (fun c => !isSpace c) t) :
    scanWord n (word ++ t) = (word, t) := by
  have hall : ∀ c ∈ word, (!isSpace c) = true := fun c hc => by simp [(hword c hc).1]
  have hskip : (word ++ t).dropWhile isSpace = word ++ t := by
    obtain ⟨c, s, rfl⟩ := List.exists_cons_of_ne_nil hne
    rw [List.cons_append, List.dropWhile_cons, (hword c List.mem_cons_self).1]
    rfl
  simp only [scanWord, hskip, takeWhile_append_stops hall ht, List.take_of_length_le hn,
    List.drop_left]

theorem scanWord_space {n : ℕ} {word : Bytes} (hword : IsWord word) (hn : word.length ≤ n)
    (hne : word ≠ []) : (scanWord n (space :: word)).1 = word := by
  have hskip : (space :: word).dropWhile isSpace = word.dropWhile isSpace := rfl
  have hscan := scanWord_append hword hn hne (stops_nil _)
  rw [List.append_nil] at hscan
  simp only [scanWord, hskip] at hscan ⊢
  exact (Prod.mk.inj hscan).1

theorem scanWord_nil (n : ℕ) : scanWord n [] = ([], []) := by simp [scanWord]

namespace ConsoleAction

/-- The two words of a line that can be typed. -/
structure Words (action : ConsoleAction) : Prop where
  command : IsWord action.command
  command_ne_nil : action.command ≠ []
  command_lt : action.command.length < maxCommand
  path : IsWord action.path
  path_lt : action.path.length < maxArgument
  dispatch : dispatch action.command action.path = action
  length_le : action.command.length + action.path.length + 2 < maxInputSize

theorem words_of_lengths {action : ConsoleAction} {m n : ℕ}
    (hcommand : IsWord action.command ∧ action.command ≠ [] ∧ action.command.length ≤ m)
    (hpath : IsWord action.path ∧ action.path.length ≤ n)
    (hdispatch : SyncServer.dispatch action.command action.path = action)
    (hm : m < maxCommand) (hn : n < maxArgument) (hmn : m + n + 2 < maxInputSize) :
    action.Words where
  command := hcommand.1
  command_ne_nil := hcommand.2.1
  command_lt := Nat.lt_of_le_of_lt hcommand.2.2 hm
  path := hpath.1
  path_lt := Nat.lt_of_le_of_lt hpath.2 hn
  dispatch := hdispatch
  length_le := by
    have hcommand := hcommand.2.2
    have hpath := hpath.2
    omega

/-- The names that take a path have eight bytes at most, which leaves room for it in the line. -/
theorem Typable.words {action : ConsoleAction} (h : action.Typable) : action.Words := by
  have hnil : IsWord [] ∧ ([] : Bytes).length ≤ 0 := by decide
  cases action with
  | exit | getSyncDir | listClient | listServer =>
      exact words_of_lengths (m := 12) (by decide) hnil (by decide) (by decide) (by decide)
        (by decide)
  | upload path =>
      have hcommand : IsWord (upload []).command ∧ (upload []).command ≠ [] ∧
        (upload []).command.length ≤ 8 := by decide
      exact words_of_lengths hcommand ⟨h.1, Nat.le_of_lt_succ h.2⟩ rfl (by decide) (by decide)
        (by decide)
  | delete path =>
      have hcommand : IsWord (delete []).command ∧ (delete []).command ≠ [] ∧
        (delete []).command.length ≤ 8 := by decide
      exact words_of_lengths hcommand ⟨h.1, Nat.le_of_lt_succ h.2⟩ rfl (by decide) (by decide)
        (by decide)
  | download path =>
      have hcommand : IsWord (download []).command ∧ (download []).command ≠ [] ∧
        (download []).command.length ≤ 8 := by decide
      exact words_of_lengths hcommand ⟨h.1, Nat.le_of_lt_succ h.2⟩ rfl (by decide) (by decide)
        (by decide)
  | unknown command =>
      obtain ⟨hword, hne, hlt, hdispatch⟩ := h
      exact words_of_lengths ⟨hword, hne, Nat.le_of_lt_succ hlt⟩ hnil hdispatch (by decide)
        (by decide) (by decide)

end ConsoleAction

/-! ### A line is read as it was typed -/

/-- The text before the newline. -/
def commandText (action : ConsoleAction) : Bytes :=
  action.command ++ if action.path = [] then [] else space :: action.path

theorem commandLine_eq (action : ConsoleAction) :
    commandLine action = commandText action ++ [newline] := by
  rw [commandLine, commandText, List.append_assoc]

theorem mem_commandText {action : ConsoleAction} (h : action.Words) {c : UInt8}
    (hc : c ∈ commandText action) : c ≠ newline ∧ c ≠ 0 := by
  have hword : ∀ {word : Bytes}, IsWord word → c ∈ word → c ≠ newline ∧ c ≠ 0 :=
    fun hword hc => ⟨fun heq => by simpa [heq, isSpace, newline] using (hword c hc).1,
      (hword c hc).2⟩
  rcases List.mem_append.mp hc with hc | hc
  · exact hword h.command hc
  · split at hc
    · cases hc
    · rcases List.mem_cons.mp hc with rfl | hc
      · exact ⟨by decide, by decide⟩
      · exact hword h.path hc

theorem length_commandText_le {action : ConsoleAction} (h : action.Words) :
    (commandText action).length + 1 < maxInputSize := by
  have hlength := h.length_le
  rw [commandText, List.length_append]
  split
  · simp only [List.length_nil]
    omega
  · simp only [List.length_cons]
    omega

theorem getCommand_commandLine {action : ConsoleAction} (h : action.Words) :
    getCommand (commandLine action) = (action.command, action.path) := by
  have hzero : 0 ∉ commandLine action := by
    rw [commandLine_eq]
    intro hmem
    rcases List.mem_append.mp hmem with hmem | hmem
    · exact (mem_commandText h hmem).2 rfl
    · exact absurd hmem (by decide)
  have hinput : (cString (commandLine action)).takeWhile (· != newline) = commandText action := by
    rw [cString_of_zero_not_mem hzero, commandLine_eq]
    refine takeWhile_append_stops (fun c hc => ?_) (by simp)
    simpa using (mem_commandText h hc).1
  have hcommand : action.command.length ≤ maxCommand - 1 := Nat.le_sub_one_of_lt h.command_lt
  have hpath : action.path.length ≤ maxArgument - 1 := Nat.le_sub_one_of_lt h.path_lt
  rw [getCommand, hinput, commandText]
  by_cases hnil : action.path = []
  · have hscan := scanWord_append h.command hcommand h.command_ne_nil (stops_nil _)
    simp only [hnil, if_true, hscan, scanWord_nil]
  · have hstops : Stops (fun c => !isSpace c) (space :: action.path) := by
      simp [isSpace, space]
    have hscan := scanWord_append h.command hcommand h.command_ne_nil hstops
    simp only [hnil, if_false, hscan, scanWord_space h.path hpath hnil]

theorem consoleAction_commandLine {action : ConsoleAction} (h : action.Words) :
    consoleAction (commandLine action) = action := by
  rw [consoleAction, getCommand_commandLine h]
  exact h.dispatch

/-- `fgets` does not stop inside the line. -/
theorem isPiece_commandLine {action : ConsoleAction} (h : action.Words) :
    IsPiece endsLine (commandLine action) where
  ne_nil := by simp [commandLine]
  ends_self := by simp [commandLine_eq, endsLine]
  before front rest heq hfront hrest := by
    have hlength := length_commandText_le h
    rw [commandLine_eq] at heq
    obtain ⟨tail, htail⟩ : ∃ tail, commandText action = front ++ tail := by
      obtain ⟨init, last, rfl⟩ := (List.eq_nil_or_concat rest).resolve_left hrest
      rw [List.concat_eq_append, ← List.append_assoc] at heq
      exact ⟨init, (List.append_inj' heq rfl).1⟩
    have hshort : front.length + 1 ≠ maxInputSize := by
      rw [htail, List.length_append] at hlength
      omega
    have hlast : front.getLast? ≠ some newline := fun hlast =>
      (mem_commandText h (htail ▸ List.mem_append_left _ (List.mem_of_getLast? hlast))).1 rfl
    simp [endsLine, hlast, hshort]

/-! ## The thread -/

inductive ConsolePlace where
  | looping
  | reading (line : Bytes)
  | ended
  deriving DecidableEq, Repr

/-- Standard input: what the kernel holds and what the C library has read from it; and the lines
that the console has taken. -/
structure Console where
  kernel : Bytes
  buffered : Bytes
  place : ConsolePlace
  lines : List Bytes
  deriving DecidableEq, Repr

inductive ConsoleStep where
  | type (bytes : Bytes)
  | select
  | fill (n : ℕ)
  | take
  | signal
  deriving DecidableEq, Repr

namespace Console

def initial : Console := ⟨[], [], .looping, []⟩

/-- What `fgets` has taken of a line. -/
def begun (s : Console) : Bytes :=
  match s.place with
  | .reading line => line
  | _ => []

def executed (s : Console) : List ConsoleAction := s.lines.map consoleAction

def step (s : Console) : ConsoleStep → Option Console
  | .type bytes => some { s with kernel := s.kernel ++ bytes }
  -- `has_data`: the kernel is asked, not the buffer
  | .select =>
      if s.place = .looping ∧ s.kernel ≠ [] then some { s with place := .reading [] } else none
  -- `read`, which gives as much as it likes
  | .fill n =>
      match s.place with
      | .reading _ =>
          if s.buffered = [] ∧ 0 < n ∧ n ≤ s.kernel.length then
            some { s with kernel := s.kernel.drop n, buffered := s.kernel.take n }
          else none
      | _ => none
  -- `fgets` takes a byte from the buffer, and returns when that ends the line
  | .take =>
      match s.place, s.buffered with
      | .reading line, c :: buffered =>
          if endsLine (line ++ [c]) then
            some { s with
              buffered
              lines := s.lines ++ [line ++ [c]]
              place := if consoleAction (line ++ [c]) = .exit then .ended else .looping }
          else some { s with buffered, place := .reading (line ++ [c]) }
      | _, _ => none
  -- one of the two signals ends the loop
  | .signal => if s.place = .looping then some { s with place := .ended } else none

/-- All that was typed. -/
def typedAfter (typed : Bytes) (_ : Console) : ConsoleStep → Bytes
  | .type bytes => typed ++ bytes
  | _ => typed

abbrev stepWithTyped : Bytes × Console → ConsoleStep → Option (Bytes × Console) :=
  watch typedAfter step

/-- The console waits for the user. -/
def Waits (s : Console) : Prop := s.place = .looping ∧ s.kernel = []

instance (s : Console) : Decidable s.Waits := inferInstanceAs (Decidable (_ ∧ _))

/-- A `read` gives one line at most, as a terminal does. -/
def OneLine (s : Console) : ConsoleStep → Prop
  | .fill n => newline ∉ (s.kernel.take n).dropLast
  | _ => True

instance (s : Console) (a : ConsoleStep) : Decidable (s.OneLine a) := by
  cases a <;> unfold OneLine <;> infer_instance

/-! ### What was taken -/

/-- The lines that were taken are the first pieces of what was typed. -/
def Taken (p : Bytes × Console) : Prop :=
  ∃ consumed, p.1 = consumed ++ (p.2.buffered ++ p.2.kernel) ∧
    cut endsLine [] consumed = (p.2.lines, p.2.begun)

variable {typed typed' : Bytes} {s t : Console}

theorem Taken.step (h : Taken (typed, s)) {a : ConsoleStep} (hstep : s.step a = some t) :
    Taken (typedAfter typed s a, t) := by
  obtain ⟨consumed, htyped, hcut⟩ := h
  simp only at htyped hcut
  cases a with
  | type bytes =>
      obtain rfl := Option.some.inj hstep
      exact ⟨consumed, by simp [typedAfter, htyped], hcut⟩
  | select =>
      obtain ⟨⟨hplace, -⟩, hstep⟩ := Option.ite_none_right_eq_some.mp hstep
      obtain rfl := Option.some.inj hstep
      refine ⟨consumed, htyped, hcut.trans ?_⟩
      simp [begun, hplace]
  | fill n =>
      simp only [Console.step] at hstep
      split at hstep
      · rename_i line hplace
        obtain ⟨⟨hbuffered, -⟩, hstep⟩ := Option.ite_none_right_eq_some.mp hstep
        obtain rfl := Option.some.inj hstep
        refine ⟨consumed, ?_, hcut⟩
        simp [typedAfter, htyped, hbuffered]
      · cases hstep
  | take =>
      simp only [Console.step] at hstep
      split at hstep
      · rename_i line c buffered hplace hbuffered
        have hbegun : s.begun = line := by simp [begun, hplace]
        have hconsumed : cut endsLine [] (consumed ++ [c]) =
            (s.lines ++ (cut endsLine line [c]).1, (cut endsLine line [c]).2) := by
          rw [cut_append, hcut, hbegun]
        split at hstep
        · rename_i hends
          obtain rfl := Option.some.inj hstep
          refine ⟨consumed ++ [c], by simp [typedAfter, htyped, hbuffered], hconsumed.trans ?_⟩
          rw [cut, if_pos hends]
          simp only [cut, begun]
          split
          · rename_i hreading
            split at hreading
            · cases hreading
            · cases hreading
          · rfl
        · rename_i hends
          obtain rfl := Option.some.inj hstep
          refine ⟨consumed ++ [c], by simp [typedAfter, htyped, hbuffered], hconsumed.trans ?_⟩
          rw [cut, if_neg hends]
          simp [cut, begun]
      · cases hstep
  | signal =>
      obtain ⟨hplace, hstep⟩ := Option.ite_none_right_eq_some.mp hstep
      obtain rfl := Option.some.inj hstep
      refine ⟨consumed, htyped, hcut.trans ?_⟩
      simp [begun, hplace]

theorem taken_of_run {as : List ConsoleStep}
    (hrun : run stepWithTyped ([], initial) as = some (typed, s)) : Taken (typed, s) := by
  refine run_invariant (fun p a q h hstep => ?_) ⟨[], rfl, rfl⟩ hrun
  obtain ⟨typed, s⟩ := p
  obtain ⟨typed', t⟩ := q
  obtain ⟨hmove, rfl⟩ := watch_eq_some.mp hstep
  exact h.step hmove

/-- Whatever is typed and however it is read, the console takes the lines in order and loses no
byte, a line ends with its newline or after 127 bytes, and its words fit their arrays. -/
theorem lines_of_run {as : List ConsoleStep}
    (hrun : run stepWithTyped ([], initial) as = some (typed, s)) :
    (∃ consumed, typed = consumed ++ (s.buffered ++ s.kernel) ∧
      cut endsLine [] consumed = (s.lines, s.begun) ∧ s.lines.flatten ++ s.begun = consumed) ∧
    ∀ line ∈ s.lines, endsLine line = true ∧ (getCommand line).1.length < maxCommand ∧
      (getCommand line).2.length < maxArgument := by
  obtain ⟨consumed, htyped, hcut⟩ := taken_of_run hrun
  refine ⟨⟨consumed, htyped, hcut, ?_⟩, fun line hline => ⟨?_, length_getCommand_lt line⟩⟩
  · have hflatten := @flatten_cut _ endsLine [] consumed
    rwa [hcut] at hflatten
  · refine @ends_of_mem_cut _ endsLine [] consumed line ?_
    rw [hcut]
    exact hline

/-- A line without a newline that is longer than the array of `fgets`. -/
def longLine : List ConsoleStep :=
  .type (List.replicate 130 97) :: .select :: .fill 130 :: List.replicate 127 .take

theorem lines_of_run_longLine :
    ∃ s, run stepWithTyped ([], initial) longLine = some (List.replicate 130 97, s) ∧
      s.buffered = [97, 97, 97] ∧ ∃ consumed, List.replicate 130 97 =
        consumed ++ (s.buffered ++ s.kernel) ∧ s.lines.flatten ++ s.begun = consumed := by
  have h : (run stepWithTyped ([], initial) longLine).any
      (fun p => p.1 = List.replicate 130 97 ∧ p.2.buffered = [97, 97, 97]) = true := by
    decide +kernel
  obtain ⟨⟨typed, s⟩, hrun, h⟩ := (Option.any_eq_true _ _).mp h
  obtain ⟨rfl, hbuffered⟩ := of_decide_eq_true h
  obtain ⟨⟨consumed, htyped, -, hlines⟩, -⟩ := lines_of_run hrun
  exact ⟨s, hrun, hbuffered, consumed, htyped, hlines⟩

/-! ### Reads of one line -/

/-- A newline stands in the buffer only at its end, and the buffer is empty whenever the last line
ended with its newline. -/
structure Emptied (s : Console) : Prop where
  newline : newline ∉ s.buffered.dropLast
  looping : (∀ line ∈ s.lines, line.getLast? = some SyncServer.newline) →
    (∀ line, s.place ≠ .reading line) → s.buffered = []

theorem Emptied.step (h : Emptied s) {a : ConsoleStep} (hone : s.OneLine a)
    (hstep : s.step a = some t) : Emptied t := by
  cases a with
  | type bytes =>
      obtain rfl := Option.some.inj hstep
      exact ⟨h.newline, h.looping⟩
  | select =>
      obtain ⟨-, hstep⟩ := Option.ite_none_right_eq_some.mp hstep
      obtain rfl := Option.some.inj hstep
      exact ⟨h.newline, fun _ hplace => absurd rfl (hplace [])⟩
  | fill n =>
      simp only [Console.step] at hstep
      split at hstep
      · rename_i line hplace
        obtain ⟨-, hstep⟩ := Option.ite_none_right_eq_some.mp hstep
        obtain rfl := Option.some.inj hstep
        exact ⟨hone, fun _ hne => absurd hplace (hne line)⟩
      · cases hstep
  | take =>
      simp only [Console.step] at hstep
      split at hstep
      · rename_i line c buffered hplace hbuffered
        have hnewline := h.newline
        rw [hbuffered] at hnewline
        have hrest : SyncServer.newline ∉ buffered.dropLast := fun hmem => by
          cases buffered with
          | nil => cases hmem
          | cons d buffered => exact hnewline (List.mem_cons_of_mem _ hmem)
        split at hstep
        · obtain rfl := Option.some.inj hstep
          refine ⟨hrest, fun hlines _ => ?_⟩
          have hlast := hlines (line ++ [c]) (by simp)
          rw [List.getLast?_concat, Option.some.injEq] at hlast
          cases buffered with
          | nil => rfl
          | cons d buffered => exact absurd (hlast ▸ List.mem_cons_self) hnewline
        · obtain rfl := Option.some.inj hstep
          exact ⟨hrest, fun _ hplace => absurd rfl (hplace (line ++ [c]))⟩
      · cases hstep
  | signal =>
      obtain ⟨hplace, hstep⟩ := Option.ite_none_right_eq_some.mp hstep
      obtain rfl := Option.some.inj hstep
      refine ⟨h.newline, fun hlines _ => h.looping hlines fun line hline => ?_⟩
      rw [hplace] at hline
      cases hline

theorem emptied_of_run {as : List ConsoleStep} (hone : Along step OneLine initial as)
    (hrun : run step initial as = some s) : Emptied s :=
  hone.invariant (fun _ _ _ h hok hstep => h.step hok hstep)
    ⟨List.not_mem_nil, fun _ _ => rfl⟩ hrun

/-! ### Commands that are typed -/

/-- The commands that are typed are executed in order, none twice and none left out. When the
console waits for the user, one of them is left exactly if the buffer of the C library is not
empty, which no read of one line leads to. -/
theorem executed_of_run {actions : List ConsoleAction} {as : List ConsoleStep}
    (htypable : ∀ action ∈ actions, action.Typable)
    (hrun : run stepWithTyped ([], initial) as = some (actions.flatMap commandLine, s)) :
    s.executed <+: actions ∧
    (s.Waits → (s.executed = actions ↔ s.buffered = [])) ∧
    (Along step OneLine initial as → s.Waits → s.executed = actions) := by
  obtain ⟨consumed, htyped, hcut⟩ := taken_of_run hrun
  simp only at htyped hcut
  have hall : cut endsLine [] (actions.flatMap commandLine) = (actions.map commandLine, []) := by
    rw [List.flatMap_def]
    refine cut_flatten fun piece hpiece => ?_
    obtain ⟨action, haction, rfl⟩ := List.mem_map.mp hpiece
    exact isPiece_commandLine (htypable action haction).words
  rw [htyped, cut_append, hcut] at hall
  obtain ⟨hlines, hleft⟩ := Prod.mk.inj hall
  have hactions : (actions.map commandLine).map consoleAction = actions := by
    rw [List.map_map]
    refine (List.map_congr_left fun action haction => ?_).trans (List.map_id actions)
    exact consoleAction_commandLine (htypable action haction).words
  rw [← hlines, List.map_append] at hactions
  have hwaits : s.Waits → (s.executed = actions ↔ s.buffered = []) := by
    rintro ⟨hplace, hkernel⟩
    have hbegun : s.begun = [] := by simp [begun, hplace]
    simp only [hbegun, hkernel, List.append_nil] at hactions hleft
    have hflatten := @flatten_cut _ endsLine [] s.buffered
    rw [hleft, List.append_nil, List.nil_append] at hflatten
    rw [← hactions, executed]
    constructor
    · intro h
      have hnil : (cut endsLine [] s.buffered).1 = [] := by simpa using h.symm
      rw [← hflatten, hnil]
      rfl
    · intro h
      simp [h, cut]
  refine ⟨⟨_, hactions⟩, hwaits, fun hone hw => (hwaits hw).mpr ?_⟩
  have hsame : (run stepWithTyped ([], initial) as).map Prod.snd = run step initial as :=
    run_watch typedAfter [] initial as
  rw [hrun] at hsame
  refine (emptied_of_run hone hsame.symm).looping (fun line hline => ?_) fun line hline => ?_
  · have hmem : line ∈ actions.map commandLine := hlines ▸ List.mem_append_left _ hline
    obtain ⟨action, -, rfl⟩ := List.mem_map.mp hmem
    simp [commandLine_eq]
  · rw [hw.1] at hline
    cases hline

def twoCommands : List ConsoleAction := [.listServer, .delete [97]]

/-- One read takes both lines. -/
def readTogether : List ConsoleStep :=
  .type (twoCommands.flatMap commandLine) :: .select :: .fill 21 :: List.replicate 12 .take

/-- One read for each line. -/
def readApart : List ConsoleStep :=
  .type (twoCommands.flatMap commandLine) :: .select :: .fill 12 :: List.replicate 12 .take ++
    .select :: .fill 9 :: List.replicate 9 .take

/-- The second of two lines that are read together waits until more is typed. -/
theorem executed_of_run_twoCommands :
    (∃ s, run stepWithTyped ([], initial) readTogether =
      some (twoCommands.flatMap commandLine, s) ∧ s.Waits ∧ s.executed ≠ twoCommands) ∧
    ∃ s, run stepWithTyped ([], initial) readApart =
      some (twoCommands.flatMap commandLine, s) ∧ s.executed = twoCommands := by
  have htypable : ∀ action ∈ twoCommands, action.Typable := by decide
  constructor
  · have h : (run stepWithTyped ([], initial) readTogether).any (fun p =>
        p.1 = twoCommands.flatMap commandLine ∧ p.2.Waits ∧ p.2.buffered ≠ []) = true := by
      decide +kernel
    obtain ⟨⟨typed, s⟩, hrun, h⟩ := (Option.any_eq_true _ _).mp h
    obtain ⟨rfl, hwaits, hbuffered⟩ := of_decide_eq_true h
    exact ⟨s, hrun, hwaits, fun hall =>
      hbuffered (((executed_of_run htypable hrun).2.1 hwaits).mp hall)⟩
  · have h : (run stepWithTyped ([], initial) readApart).any (fun p =>
        p.1 = twoCommands.flatMap commandLine ∧ p.2.Waits) = true := by decide +kernel
    obtain ⟨⟨typed, s⟩, hrun, h⟩ := (Option.any_eq_true _ _).mp h
    obtain ⟨rfl, hwaits⟩ := of_decide_eq_true h
    exact ⟨s, hrun, (executed_of_run htypable hrun).2.2 (by decide +kernel) hwaits⟩

end Console

end SyncServer
