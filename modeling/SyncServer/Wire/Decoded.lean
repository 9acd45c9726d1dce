import SyncServer.Wire.Registration

/-! # Events that were read

Any text is read as some event. The events that come out are those whose strings can be told
apart, and writing such an event and reading it again changes nothing, so that a text and the
normal form of what it says are read alike.
-/

namespace SyncServer

open CText

/-- A reader of texts whose values are those that meet the condition, and a writer that is its
inverse on them. -/
theorem normalizes_of {α : Type*} {read : Bytes → α} {write : α → Bytes} {P : α → Prop}
    (hread : ∀ str, 0 ∉ str → P (read str))
    (hwrite : ∀ a, P a → 0 ∉ write a ∧ read (write a) = a) :
    (∀ str, 0 ∉ str → 0 ∉ write (read str) ∧ read (write (read str)) = read str) ∧
      ∀ a, (∃ str, 0 ∉ str ∧ read str = a) ↔ P a := by
  refine ⟨fun str hzero => hwrite _ (hread str hzero), fun a => ⟨?_, fun h => ?_⟩⟩
  · rintro ⟨str, hzero, rfl⟩
    exact hread str hzero
  · obtain ⟨hzero, hsame⟩ := hwrite a h
    exact ⟨write a, hzero, hsame⟩

theorem zero_ne_pipe : (0 : UInt8) ≠ pipe := by decide

/-! ## Election events -/

/-- The type and the id are `int`s. -/
structure ElectionEvent.Decoded (event : ElectionEvent) : Prop where
  type : ∃ value, IsInt value ∧ event.type = .ofInt value
  id : IsInt event.id

theorem ElectionMsgType.toInt_ofInt (value : ℤ) : (ofInt value).toInt = value := by
  unfold ofInt
  split_ifs with h₀ h₁ h₂
  · exact h₀.symm
  · exact h₁.symm
  · exact h₂.symm
  · rfl

theorem decoded_deserializeElectionEvent (str : Bytes) :
    (deserializeElectionEvent str).Decoded := by
  have hzero : IsInt 0 := by decide
  unfold deserializeElectionEvent
  split
  · exact ⟨⟨0, hzero, rfl⟩, hzero⟩
  · split
    · exact ⟨⟨_, isInt_atoi _, rfl⟩, hzero⟩
    · simp only
      split
      · exact ⟨⟨_, isInt_atoi _, rfl⟩, hzero⟩
      · exact ⟨⟨_, isInt_atoi _, rfl⟩, isInt_atoi _⟩

theorem deserialize_serialize_of_decodedElection {event : ElectionEvent} (h : event.Decoded) :
    0 ∉ serializeElectionEvent event ∧
      deserializeElectionEvent (serializeElectionEvent event) = event := by
  obtain ⟨value, hvalue, htype⟩ := h.type
  constructor
  · simp only [serializeElectionEvent, List.mem_append, List.mem_cons, not_or]
    exact ⟨zero_not_mem_printInt _, zero_ne_pipe, zero_not_mem_printAddress _, zero_ne_pipe,
      zero_not_mem_printInt _⟩
  · have haddress : strtok pipe (printAddress event.deviceAddress ++ pipe :: printInt event.id) =
        (some (printAddress event.deviceAddress), printInt event.id) :=
      strtok_append (printAddress_ne_nil _) (pipe_not_mem_printAddress _) (stops_pipe _)
    have hlast : strtok pipe (printInt event.id) = (some (printInt event.id), []) := by
      simpa using strtok_append (printInt_ne_nil event.id) (pipe_not_mem_printInt _)
        (stops_nil (· != pipe))
    have hnumber : atoi (printInt event.type.toInt) = value := by
      rw [htype, ElectionMsgType.toInt_ofInt, atoi_printInt_self hvalue]
    simp only [deserializeElectionEvent, strtok_serializeElectionEvent, haddress, hlast, hnumber,
      atoi_printInt_self h.id, parseAddress_printAddress, ← htype]

/-- Every text is read as an event whose numbers are `int`s, every such event is read from some
text, and an event that was read survives being written and read again. -/
theorem electionEvents_read :
    (∀ str, 0 ∉ str → 0 ∉ serializeElectionEvent (deserializeElectionEvent str) ∧
      deserializeElectionEvent (serializeElectionEvent (deserializeElectionEvent str)) =
        deserializeElectionEvent str) ∧
    ∀ event, (∃ str, 0 ∉ str ∧ deserializeElectionEvent str = event) ↔ event.Decoded :=
  normalizes_of (fun str _ => decoded_deserializeElectionEvent str)
    fun _ h => deserialize_serialize_of_decodedElection h

/-! ## Replica events -/

/-- The type is an `int`, no string is empty or holds a separator, and a file path comes after a
user name. -/
structure ReplicaEvent.Decoded (event : ReplicaEvent) : Prop where
  type : ∃ value, IsInt value ∧ event.type = .ofInt value
  username : ∀ name ∈ event.username, Carried name ∧ 0 ∉ name
  filepath : ∀ path ∈ event.filepath, Carried path ∧ 0 ∉ path ∧ event.username ≠ none

theorem ReplicaEventType.toInt_ofInt (value : ℤ) : (ofInt value).toInt = value := by
  unfold ofInt
  split_ifs with h₀ h₁ h₂ h₃ h₄ h₅
  · exact h₀.symm
  · exact h₁.symm
  · exact h₂.symm
  · exact h₃.symm
  · exact h₄.symm
  · exact h₅.symm
  · rfl

/-- The string of a token. -/
theorem carried_keepToken {s name : Bytes} (hzero : 0 ∉ s)
    (h : keepToken (strtok pipe s).1 = some name) :
    Carried name ∧ 0 ∉ name ∧ 0 ∉ (strtok pipe s).2 := by
  cases htoken : strtok pipe s with
  | mk token rest =>
      rw [htoken] at h
      obtain ⟨rfl, -⟩ := Option.filter_eq_some_iff.mp h
      obtain ⟨hne, hpipe, hmem, hrest⟩ := strtok_eq_some htoken
      exact ⟨⟨hne, hpipe⟩, fun h => hzero (hmem 0 h), fun h => hzero (hrest 0 h)⟩

theorem keepToken_eq_none {s : Bytes} (h : keepToken (strtok pipe s).1 = none) :
    (strtok pipe s).2 = [] := by
  cases htoken : strtok pipe s with
  | mk token rest =>
      cases token with
      | none => exact strtok_eq_none htoken
      | some token =>
          obtain ⟨hne, -⟩ := strtok_eq_some htoken
          simp [htoken, keepToken, Option.filter_some, hne] at h

theorem decoded_deserializeReplicaEvent {str : Bytes} (hzero : 0 ∉ str) :
    (deserializeReplicaEvent str).Decoded := by
  have hint : IsInt 0 := by decide
  unfold deserializeReplicaEvent
  split
  · exact ⟨⟨0, hint, rfl⟩, (fun _ h => by cases h), fun _ h => by cases h⟩
  · rename_i htype
    obtain ⟨-, -, -, hrest⟩ := strtok_eq_some htype
    simp only
    split
    · exact ⟨⟨_, isInt_atoi _, rfl⟩, (fun _ h => by cases h), fun _ h => by cases h⟩
    · rename_i rest haddress
      obtain ⟨-, -, -, hrest'⟩ := strtok_eq_some haddress
      have hzero' : 0 ∉ rest := fun h => hzero (hrest 0 (hrest' 0 h))
      refine ⟨⟨_, isInt_atoi _, rfl⟩, fun name hname => ?_, fun path hpath => ?_⟩
      · obtain ⟨hcarried, hname, -⟩ := carried_keepToken hzero' hname
        exact ⟨hcarried, hname⟩
      · -- without a user name nothing is left for the path
        cases huser : keepToken (strtok pipe rest).1 with
        | none =>
            rw [Option.mem_def, keepToken_eq_none huser] at hpath
            cases hpath
        | some name =>
            obtain ⟨-, -, hzero'⟩ := carried_keepToken hzero' huser
            obtain ⟨hcarried, hpath, -⟩ := carried_keepToken hzero' hpath
            exact ⟨hcarried, hpath, by simp⟩

/-- The two strings of an event that was read are told apart again. -/
theorem tokens_of_decoded {event : ReplicaEvent} (h : event.Decoded) :
    keepToken (strtok pipe (event.username.getD [] ++ pipe :: event.filepath.getD [])).1 =
        event.username ∧
      keepToken (strtok pipe (strtok pipe
        (event.username.getD [] ++ pipe :: event.filepath.getD [])).2).1 = event.filepath := by
  have hkeep : ∀ {name : Bytes}, name ≠ [] → keepToken (some name) = some name := fun hne => by
    simp [keepToken, Option.filter_some, hne]
  cases huser : event.username with
  | none =>
      have hfile : event.filepath = none := by
        cases hfile : event.filepath with
        | none => rfl
        | some path => exact absurd huser (h.filepath path hfile).2.2
      rw [hfile]
      exact ⟨rfl, rfl⟩
  | some name =>
      obtain ⟨⟨hne, hpipe⟩, -⟩ := h.username name huser
      rw [Option.getD_some, strtok_append hne hpipe (stops_pipe _)]
      refine ⟨hkeep hne, ?_⟩
      cases hfile : event.filepath with
      | none => rfl
      | some path =>
          obtain ⟨⟨hne', hpipe'⟩, -⟩ := h.filepath path hfile
          have htoken : strtok pipe path = (some path, []) := by
            simpa using strtok_append hne' hpipe' (stops_nil (· != pipe))
          rw [Option.getD_some, List.drop_one, List.tail_cons, htoken]
          exact hkeep hne'

theorem zero_not_mem_getD {name : Option Bytes} (h : ∀ s ∈ name, 0 ∉ s) : 0 ∉ name.getD [] := by
  cases name with
  | none => exact List.not_mem_nil
  | some s => exact h s rfl

theorem deserialize_serialize_of_decodedReplica {event : ReplicaEvent} (h : event.Decoded) :
    0 ∉ serializeReplicaEvent event ∧
      deserializeReplicaEvent (serializeReplicaEvent event) = event := by
  obtain ⟨value, hvalue, htype⟩ := h.type
  constructor
  · simp only [serializeReplicaEvent, List.mem_append, List.mem_cons, not_or]
    exact ⟨zero_not_mem_printInt _, zero_ne_pipe, zero_not_mem_printAddress _, zero_ne_pipe,
      zero_not_mem_getD fun name hname => (h.username name hname).2, zero_ne_pipe,
      zero_not_mem_getD fun path hpath => (h.filepath path hpath).2.1⟩
  · have haddress : ∀ s, strtok pipe (printAddress event.deviceAddress ++ pipe :: s) =
        (some (printAddress event.deviceAddress), s) := fun s =>
      strtok_append (printAddress_ne_nil _) (pipe_not_mem_printAddress _) (stops_pipe s)
    have hnumber : atoi (printInt event.type.toInt) = value := by
      rw [htype, ReplicaEventType.toInt_ofInt, atoi_printInt_self hvalue]
    obtain ⟨huser, hfile⟩ := tokens_of_decoded h
    simp only [deserializeReplicaEvent, strtok_serializeReplicaEvent, haddress, hnumber,
      parseAddress_printAddress, huser, hfile, ← htype]

/-- Every text is read as an event whose type is an `int` and whose strings can be told apart,
every such event is read from some text, and an event that was read survives being written and
read again. -/
theorem replicaEvents_read :
    (∀ str, 0 ∉ str → 0 ∉ serializeReplicaEvent (deserializeReplicaEvent str) ∧
      deserializeReplicaEvent (serializeReplicaEvent (deserializeReplicaEvent str)) =
        deserializeReplicaEvent str) ∧
    ∀ event, (∃ str, 0 ∉ str ∧ deserializeReplicaEvent str = event) ↔ event.Decoded :=
  normalizes_of (fun _ hzero => decoded_deserializeReplicaEvent hzero)
    fun _ h => deserialize_serialize_of_decodedReplica h

/-- Separators at the front and between the tokens, a number with a sign, and a text after the last
token. -/
example : serializeReplicaEvent
    (deserializeReplicaEvent [124, 43, 50, 124, 124, 120, 124, 97, 124, 98, 124, 99]) =
      serializeReplicaEvent ⟨.fileUploaded, .zero, some [97], some [98]⟩ := by decide +kernel

end SyncServer
