import SyncServer.Library.Framing
import SyncServer.Replication.Senders

/-! # What is written to the connections

The packets on an open connection are complete transmissions, followed by what the thread in
the middle of one has sent, as long as the threads keep out of each other's way and files are
what they were announced to be.
-/

namespace SyncServer

open CText Framing Transition

/-! ## Transmissions -/

theorem not_transmission_nil : ¬Transmission [] := nofun

/-- A reader knows from the packets themselves where a transmission ends. -/
theorem transmission_prefixFree (f g : List Packet) (hf : Transmission f) (hg : Transmission g)
    (h : f <+: g) : f = g := by
  cases f with
  | nil => exact absurd hf not_transmission_nil
  | cons message f =>
      cases g with
      | nil => exact absurd hg not_transmission_nil
      | cons message' g =>
          obtain ⟨rfl, hfg⟩ := List.cons_prefix_cons.mp h
          have hf := hf.2
          have hg := hg.2
          split at hf
          · rename_i htype
            rw [htype] at hg
            obtain ⟨announcement, data, rfl, -, hlength, -⟩ := hf
            obtain ⟨announcement', data', rfl, -, hlength', -⟩ := hg
            obtain ⟨rfl, hdata⟩ := List.cons_prefix_cons.mp hfg
            rw [hdata.eq_of_length (hlength.trans hlength'.symm)]
          · rename_i htype
            rw [htype] at hg
            obtain ⟨packet, rfl, -⟩ := hf
            obtain ⟨packet', rfl, -⟩ := hg
            rw [hfg.eq_of_length rfl]
          · rename_i hup hdel
            have hg : g = [] := by
              split at hg
              · rename_i htype
                exact absurd htype hup
              · rename_i htype
                exact absurd htype hdel
              · exact hg
            subst hf hg
            rfl

/-- An event is followed by what its reader takes it to announce. -/
theorem transmission_event {event : ReplicaEvent} {rest : List Packet} :
    Transmission (eventPacket event :: rest) ↔
      (event.received.type = .fileUploaded ∧ ∃ announcement data,
        rest = announcement :: data ∧ announcement.type = .send ∧
          data.length = announcedPackets announcement ∧
          ∀ packet ∈ data, packet.type = .data) ∨
      (event.received.type = .fileDeleted ∧ ∃ packet, rest = [packet] ∧ packet.type = .delete) ∨
      (event.received.type ≠ .fileUploaded ∧ event.received.type ≠ .fileDeleted ∧ rest = []) := by
  have hevent : deserializeReplicaEvent (eventPacket event).payload = event.received := rfl
  have htype : (eventPacket event).type = .replicaMsg := rfl
  rw [Transmission, hevent]
  cases hreceived : event.received.type <;> simp [htype]

/-- An event that is neither an upload nor a deletion stands alone. -/
theorem transmission_alone {event : ReplicaEvent} (hup : event.received.type ≠ .fileUploaded)
    (hdel : event.received.type ≠ .fileDeleted) : Transmission [eventPacket event] := by
  rw [transmission_event]
  exact .inr (.inr ⟨hup, hdel, rfl⟩)

/-- So does the registration of a replica. -/
theorem transmission_addedEvent {node : ReplicaNode} (hid : IsInt node.id)
    (hport : IsInt node.listenerPort) : Transmission [eventPacket node.addedEvent] := by
  have htype : node.addedEvent.received.type = .replicaAdded :=
    received_type (fun _ h => nomatch h)
      (length_serialize_replicaAdded hid hport node.deviceAddress)
  apply transmission_alone
  · simp [htype]
  · simp [htype]

theorem transmission_upload {event : ReplicaEvent} {announcement : Packet} {data : List Packet}
    (hup : event.received.type = .fileUploaded) (hsend : announcement.type = .send)
    (hlength : data.length = announcedPackets announcement)
    (hdata : ∀ packet ∈ data, packet.type = .data) :
    Transmission (eventPacket event :: announcement :: data) := by
  rw [transmission_event]
  exact .inl ⟨hup, announcement, data, rfl, hsend, hlength, hdata⟩

theorem transmission_delete {event : ReplicaEvent} {packet : Packet}
    (hdel : event.received.type = .fileDeleted) (hpacket : packet.type = .delete) :
    Transmission [eventPacket event, packet] := by
  rw [transmission_event]
  exact .inr (.inl ⟨hdel, packet, rfl, hpacket⟩)

/-- An upload that is not followed by its announcement spoils the stream for good. -/
theorem not_begun_of_upload {alone : List Packet} (halone : ∀ packet ∈ alone, Transmission [packet])
    {event : ReplicaEvent} (hup : event.received.type = .fileUploaded) {packet : Packet}
    (hpacket : packet.type ≠ .send) :
    ¬Begun Transmission (alone ++ [eventPacket event, packet]) := by
  rintro ⟨rest, hwhole⟩
  induction alone with
  | nil =>
      obtain ⟨f, hframe, hstart⟩ := hwhole.exists_frame not_transmission_nil
      obtain ⟨-, announcement, data, rfl, hsend, -⟩ | ⟨hdel, -⟩ | ⟨hne, -⟩ :=
        transmission_event.mp hframe
      · obtain ⟨rfl, -⟩ := List.cons_prefix_cons.mp hstart
        exact hpacket hsend
      · rw [hup] at hdel
        cases hdel
      · exact hne hup
  | cons first alone ih =>
      refine ih (fun packet h => halone packet (List.mem_cons_of_mem _ h)) ?_
      exact Whole.of_append transmission_prefixFree not_transmission_nil
        (halone first List.mem_cons_self) hwhole

/-! ## The threads between two packets of a transmission -/

namespace Sender

/-- The thread has taken the mutex and not yet given it back. -/
def Holds : Sender → Bool
  | sendMessage _ _ => true
  | openFile _ _ _ => true
  | announceFile _ _ _ _ => true
  | sendData _ _ _ _ _ => true
  | sendDelete _ _ _ => true
  | advance _ _ _ => true
  | unlockList _ => true
  | _ => false

/-- The connection on which the thread has more to send of its transmission. -/
def midway : Sender → Option ℕ
  | openFile _ socketfd _ => some socketfd
  | announceFile _ socketfd _ _ => some socketfd
  | sendData _ socketfd _ _ _ => some socketfd
  | sendDelete _ socketfd _ => some socketfd
  | _ => none

theorem holds_of_midway {p : Sender} {socketfd : ℕ} (h : p.midway = some socketfd) :
    p.Holds = true := by
  cases p with
  | openFile _ _ _ => rfl
  | announceFile _ _ _ _ => rfl
  | sendData _ _ _ _ _ => rfl
  | sendDelete _ _ _ => rfl
  | _ => cases h

/-- What a thread that is midway has sent of its transmission. -/
def Wrote : Sender → List Packet → Prop
  | openFile notice _ _, part =>
      notice.event.received.type = .fileUploaded ∧ part = [eventPacket notice.event]
  | announceFile notice _ _ _, part =>
      notice.event.received.type = .fileUploaded ∧ part = [eventPacket notice.event]
  | sendData notice _ _ fileSize sent, part =>
      notice.event.received.type = .fileUploaded ∧
        ∃ filename data, notice.event.filepath = some filename ∧
          part = eventPacket notice.event :: fileAnnouncementPacket filename fileSize :: data ∧
          data.length = sent ∧ (∀ packet ∈ data, packet.type = .data) ∧
          sent ≤ announcedPackets (fileAnnouncementPacket filename fileSize)
  | sendDelete notice _ _, part =>
      notice.event.received.type = .fileDeleted ∧ part = [eventPacket notice.event]
  | _, _ => False

/-- Some packets complete what was sent. -/
theorem Wrote.exists_rest {p : Sender} {part : List Packet} (h : p.Wrote part) :
    ∃ rest, Transmission (part ++ rest) := by
  have hempty : announcedPackets (createTextPacket .send []) = 0 := rfl
  cases p with
  | openFile notice socketfd result =>
      obtain ⟨hup, rfl⟩ := h
      exact ⟨[createTextPacket .send []], transmission_upload hup rfl hempty.symm (by simp)⟩
  | announceFile notice socketfd result fileSize =>
      obtain ⟨hup, rfl⟩ := h
      exact ⟨[createTextPacket .send []], transmission_upload hup rfl hempty.symm (by simp)⟩
  | sendData notice socketfd result fileSize sent =>
      obtain ⟨hup, filename, data, -, rfl, rfl, hdata, hle⟩ := h
      refine ⟨List.replicate (announcedPackets (fileAnnouncementPacket filename fileSize) -
        data.length) (createTextPacket .data []), transmission_upload hup rfl ?_ ?_⟩
      · change (data ++ List.replicate _ _).length = _
        rw [List.length_append, List.length_replicate]
        omega
      · intro packet hpacket
        rcases List.mem_append.mp hpacket with hpacket | hpacket
        · exact hdata packet hpacket
        · rw [List.eq_of_mem_replicate hpacket]
          rfl
  | sendDelete notice socketfd result =>
      obtain ⟨hdel, rfl⟩ := h
      exact ⟨[createTextPacket .delete []], transmission_delete hdel rfl⟩
  | _ => cases h

/-- Seen from a thread with the mutex: a connection that it is not midway on has complete
transmissions, the other one also what the thread has sent. -/
structure Stands (p : Sender) (socketfd : ℕ) (stream : List Packet) : Prop where
  midway : p.midway = some socketfd →
    ∃ whole part, stream = whole ++ part ∧ Whole Transmission whole ∧ p.Wrote part
  elsewhere : p.midway ≠ some socketfd → Whole Transmission stream

/-- A thread that is not midway on a connection, before or after a step, sees it alike. -/
theorem Stands.of_ne {p p' : Sender} {socketfd : ℕ} {stream : List Packet}
    (h : p.Stands socketfd stream) (hp : p.midway ≠ some socketfd)
    (hp' : p'.midway ≠ some socketfd) : p'.Stands socketfd stream :=
  ⟨fun hm => absurd hm hp', fun _ => h.elsewhere hp⟩

theorem holds_walk (notice : Notice) (current : Option ℕ) :
    (walk notice current).Holds = true := by
  cases current with
  | none => rfl
  | some socketfd => rfl

theorem midway_walk (notice : Notice) (current : Option ℕ) :
    (walk notice current).midway = none := by
  cases current with
  | none => rfl
  | some socketfd => rfl

theorem holds_follow (notice : Notice) (socketfd : ℕ) (result : SendResult) :
    (follow notice socketfd result).Holds = true := by
  unfold follow
  split <;> rfl

theorem eq_of_midway_follow {notice : Notice} {socketfd other : ℕ} {result : SendResult}
    (h : (follow notice socketfd result).midway = some other) : other = socketfd := by
  unfold follow at h
  split at h
  · exact (Option.some.inj h).symm
  · exact (Option.some.inj h).symm
  · cases h

/-- An event that reads as what it is leaves its sender midway or is complete. -/
theorem stands_follow {notice : Notice} {socketfd : ℕ} {result : SendResult}
    {stream : List Packet} (hstream : Whole Transmission stream)
    (htype : notice.event.received.type = notice.event.type) :
    (follow notice socketfd result).Stands socketfd (stream ++ [eventPacket notice.event]) := by
  unfold follow
  split
  · rename_i hup
    exact ⟨fun _ => ⟨stream, _, rfl, hstream, htype.trans hup, rfl⟩, fun hm => absurd rfl hm⟩
  · rename_i hdel
    exact ⟨fun _ => ⟨stream, _, rfl, hstream, htype.trans hdel, rfl⟩, fun hm => absurd rfl hm⟩
  · rename_i hup hdel
    refine ⟨nofun, fun _ => hstream.append (whole_of_frame (transmission_alone ?_ ?_))⟩
    · rw [htype]
      exact hup
    · rw [htype]
      exact hdel

/-- One more data packet of a file. -/
theorem Stands.sendData_succ {notice : Notice} {socketfd : ℕ} {result : SendResult}
    {fileSize count : ℕ} {stream : List Packet}
    (h : (sendData notice socketfd result fileSize count).Stands socketfd stream)
    (hcount : ∀ filename ∈ notice.event.filepath,
      count + 1 ≤ announcedPackets (fileAnnouncementPacket filename fileSize)) (chunk : Bytes) :
    (sendData notice socketfd result fileSize (count + 1)).Stands socketfd
      (stream ++ [createTextPacket .data chunk]) := by
  refine ⟨fun _ => ?_, fun hm => absurd rfl hm⟩
  obtain ⟨whole, part, rfl, hwhole, hup, filename, data, hfilename, rfl, hlength, hdata, -⟩ :=
    h.midway rfl
  refine ⟨whole, _, List.append_assoc _ _ _, hwhole, hup, filename,
    data ++ [createTextPacket .data chunk], hfilename, rfl, ?_, ?_, hcount filename hfilename⟩
  · rw [List.length_append, hlength]
    rfl
  · intro packet hpacket
    rcases List.mem_append.mp hpacket with hpacket | hpacket
    · exact hdata packet hpacket
    · rw [List.mem_singleton.mp hpacket]
      rfl

/-- The last data packet completes the transmission. -/
theorem Stands.whole_of_sendData {notice : Notice} {socketfd : ℕ} {result : SendResult}
    {fileSize count : ℕ} {stream : List Packet}
    (h : (sendData notice socketfd result fileSize count).Stands socketfd stream)
    (hcount : ∀ filename ∈ notice.event.filepath,
      count = announcedPackets (fileAnnouncementPacket filename fileSize)) :
    Whole Transmission stream := by
  obtain ⟨whole, part, rfl, hwhole, hup, filename, data, hfilename, rfl, hlength, hdata, -⟩ :=
    h.midway rfl
  exact hwhole.append (whole_of_frame
    (transmission_upload hup rfl (hlength.trans (hcount filename hfilename)) hdata))

theorem Stands.begun {p : Sender} {socketfd : ℕ} {stream : List Packet}
    (h : p.Stands socketfd stream) : Begun Transmission stream := by
  by_cases hm : p.midway = some socketfd
  · obtain ⟨whole, part, rfl, hwhole, hwrote⟩ := h.midway hm
    obtain ⟨rest, hrest⟩ := hwrote.exists_rest
    exact hwhole.begun_append hrest
  · exact (h.elsewhere hm).begun

end Sender

/-! ## The property and the condition -/

/-- The read is the last one of the loop over the file. -/
def Outcome.ends (o : Outcome) : Bool := o.chunk.all (·.length ≠ fileChunkSize)

/-- The loop over the file ends where the announcement said: with the read, the packets do not
exceed the number announced, and they reach it if the loop ends. -/
def Outcome.Fits (o : Outcome) (sent announced : ℕ) : Prop :=
  (if o.chunk.isSome then sent + 1 else sent) ≤ announced ∧
    (o.ends = true → (if o.chunk.isSome then sent + 1 else sent) = announced)

instance (o : Outcome) (sent announced : ℕ) : Decidable (o.Fits sent announced) :=
  inferInstanceAs (Decidable (_ ∧ _))

theorem announcedPackets_fileAnnouncementPacket {filename : Bytes} {fileSize : ℕ}
    (hname : filename.length + 16 < 2 ^ 16) :
    announcedPackets (fileAnnouncementPacket filename fileSize) = numPackets fileSize := by
  have hlt := numPackets_lt fileSize
  rw [announcedPackets, fileAnnouncementPacket, payload_announcementPacket _ hname,
    FileAnnouncement.toBytes, List.take_append_of_le_length (by simp),
    List.take_of_length_le (by simp), readLittleEndian_littleEndian, Nat.mod_eq_of_lt (by omega)]

/-- Only the last chunk of a file may be short. -/
theorem length_eq_of_short {content chunk : Bytes} {k : ℕ}
    (hchunk : (readFileChunks content)[k]? = some chunk) (hshort : chunk.length ≠ fileChunkSize) :
    k + 1 = (readFileChunks content).length := by
  fun_induction readFileChunks content generalizing k with
  | case1 => cases hchunk
  | case2 content hne ih =>
      cases k with
      | zero =>
          obtain rfl := Option.some.inj hchunk
          have hend : content.drop fileChunkSize = [] := by
            rw [List.length_take] at hshort
            exact List.drop_eq_nil_iff.mpr (by omega)
          rw [hend, readFileChunks]
          rfl
      | succ k => rw [List.length_cons, ← ih hchunk]

/-- A file that is read as it was when its size was taken, with fewer than `2 ^ 31` chunks and a
name that fits, ends where the announcement said. -/
theorem Outcome.fits_of_unchanged {o : Outcome} {filename content : Bytes} {sent : ℕ}
    (hname : filename.length + 16 < 2 ^ 16) (hsize : chunkCount content.length < 2 ^ 31)
    (hsent : sent ≤ (readFileChunks content).length)
    (hread : o.chunk = (readFileChunks content)[sent]?) :
    o.Fits sent (announcedPackets (fileAnnouncementPacket filename content.length)) := by
  rw [announcedPackets_fileAnnouncementPacket hname, numPackets_eq hsize, ← length_readFileChunks]
  unfold Outcome.Fits Outcome.ends
  cases hchunk : (readFileChunks content)[sent]? with
  | none =>
      have hend := List.getElem?_eq_none_iff.mp hchunk
      simp only [hread, hchunk, Option.isSome_none, Bool.false_eq_true, ite_false]
      exact ⟨hsent, fun _ => le_antisymm hsent hend⟩
  | some chunk =>
      have hlt := (List.getElem?_eq_some_iff.mp hchunk).1
      simp only [hread, hchunk, Option.isSome_some, ite_true, Option.all_some, decide_eq_true_eq]
      exact ⟨hlt, length_eq_of_short hchunk⟩

namespace Senders

/-- A connection carries complete transmissions, and the beginning of one only while a thread
is midway on it or after it was closed. -/
structure WellFormed (s : Senders) : Prop where
  begun : ∀ socketfd, Begun Transmission (s.streams socketfd)
  whole : ∀ socketfd, s.link socketfd = .open →
    (∀ p ∈ s.threads, p.midway ≠ some socketfd) → Whole Transmission (s.streams socketfd)

/-- What the condition asks of the next step of a thread. -/
def ThreadMeets (s : Senders) (o : Outcome) : Sender → Prop
  | .sendMessage notice socketfd =>
      s.link socketfd = .open → notice.event.received.type = notice.event.type
  | .openFile _ socketfd _ => s.link socketfd = .open → o.fileSize.isSome = true
  | .sendData notice socketfd _ fileSize sent =>
      s.link socketfd = .open → ∀ filename ∈ notice.event.filepath,
        o.Fits sent (announcedPackets (fileAnnouncementPacket filename fileSize))
  | .relay socketfd (some _) =>
      s.link socketfd = .open → ∀ p ∈ s.threads, p.midway ≠ some socketfd
  | .relay _ none => ∀ p ∈ s.threads, p.Holds = false
  | _ => True

/-- The text of an event still reads as its type, a file that is announced opens and is read in
as many chunks, and the thread of a joining replica sends to it while nobody is midway there
and unlocks the mutex while nobody holds it. -/
def Meets (s : Senders) : Action → Prop
  | .run i o => ∀ p ∈ s.threads[i]?, s.ThreadMeets o p
  | _ => True

/-! ## The invariant -/

/-- At most one thread holds the mutex, and what is on the connections is what that thread, or
without one every thread, sees of complete transmissions. -/
structure Orderly (s : Senders) : Prop where
  locked : ∀ (i : ℕ) (p : Sender), s.threads[i]? = some p → p.Holds = true → s.mutex = true
  exclusive : ∀ (i j : ℕ) (p q : Sender), s.threads[i]? = some p → s.threads[j]? = some q →
    p.Holds = true → q.Holds = true → i = j
  ints : ∀ node ∈ s.list, IsInt node.id ∧ IsInt node.listenerPort
  unused : ∀ socketfd, s.link socketfd = .unused → s.streams socketfd = []
  begun : ∀ socketfd, s.link socketfd ≠ .open → Begun Transmission (s.streams socketfd)
  held : ∀ socketfd, s.link socketfd = .open → ∀ (i : ℕ) (p : Sender),
    s.threads[i]? = some p → p.Holds = true → p.Stands socketfd (s.streams socketfd)
  free : ∀ socketfd, s.link socketfd = .open → (∀ p ∈ s.threads, p.Holds = false) →
    Whole Transmission (s.streams socketfd)

theorem orderly_initial : Orderly initial where
  locked i p hp := by cases hp
  exclusive i j p q hp := by cases hp
  ints node hnode := by cases hnode
  unused _ _ := rfl
  begun _ _ := whole_nil.begun
  held _ h := by cases h
  free _ h := by cases h

theorem getElem?_set_cases {α : Type*} {l : List α} {i j : ℕ} {x y : α}
    (h : (l.set i x)[j]? = some y) : (j = i ∧ y = x) ∨ (j ≠ i ∧ l[j]? = some y) := by
  by_cases hj : j = i
  · subst hj
    have hlt : j < l.length := by simpa using (List.getElem?_eq_some_iff.mp h).1
    rw [List.getElem?_set_self hlt] at h
    exact Or.inl ⟨rfl, (Option.some.inj h).symm⟩
  · rw [List.getElem?_set_ne (Ne.symm hj)] at h
    exact Or.inr ⟨hj, h⟩

theorem mem_set_self {α : Type*} {l : List α} {i : ℕ} {x y : α} (h : l[i]? = some x) :
    y ∈ l.set i y :=
  List.mem_set (List.getElem?_eq_some_iff.mp h).1 y

theorem holds_false_of_mem {s : Senders}
    (h : ∀ (i : ℕ) (p : Sender), s.threads[i]? = some p → p.Holds = false) :
    ∀ p ∈ s.threads, p.Holds = false := by
  intro p hp
  obtain ⟨i, hi⟩ := List.mem_iff_getElem?.mp hp
  exact h i p hi

/-- A connection that no thread is midway on is whole. -/
theorem Orderly.whole {s : Senders} (h : Orderly s) {socketfd : ℕ} (hopen : s.link socketfd = .open)
    (hnone : ∀ p ∈ s.threads, p.midway ≠ some socketfd) :
    Whole Transmission (s.streams socketfd) := by
  by_cases hholder : ∃ p ∈ s.threads, p.Holds = true
  · obtain ⟨p, hp, hholds⟩ := hholder
    obtain ⟨i, hi⟩ := List.mem_iff_getElem?.mp hp
    exact (h.held socketfd hopen i p hi hholds).elsewhere (hnone p hp)
  · apply h.free socketfd hopen
    intro p hp
    by_contra hholds
    exact hholder ⟨p, hp, by simpa using hholds⟩

theorem Orderly.begun_of_open {s : Senders} (h : Orderly s) {socketfd : ℕ}
    (hopen : s.link socketfd = .open) : Begun Transmission (s.streams socketfd) := by
  by_cases hmidway : ∃ p ∈ s.threads, p.midway = some socketfd
  · obtain ⟨p, hp, hmidway⟩ := hmidway
    obtain ⟨i, hi⟩ := List.mem_iff_getElem?.mp hp
    exact (h.held socketfd hopen i p hi (Sender.holds_of_midway hmidway)).begun
  · exact (h.whole hopen fun p hp hm => hmidway ⟨p, hp, hm⟩).begun

theorem Orderly.wellFormed {s : Senders} (h : Orderly s) : s.WellFormed where
  begun socketfd := by
    by_cases hopen : s.link socketfd = .open
    · exact h.begun_of_open hopen
    · exact h.begun socketfd hopen
  whole _ hopen hnone := h.whole hopen hnone

/-! ## What the steps do to the invariant -/

/-- A connection ends. -/
theorem Orderly.close {s : Senders} (h : Orderly s) (socketfd : ℕ) :
    Orderly { s with link := Function.update s.link socketfd .closed } := by
  have hlink : ∀ other, Function.update s.link socketfd .closed other = .open →
      other ≠ socketfd ∧ s.link other = .open := by
    intro other hother
    by_cases ho : other = socketfd
    · rw [ho, Function.update_self] at hother
      cases hother
    · rw [Function.update_of_ne ho] at hother
      exact ⟨ho, hother⟩
  refine ⟨h.locked, h.exclusive, h.ints, fun other hother => ?_, fun other _ => ?_,
    fun other hother => h.held other (hlink other hother).2,
    fun other hother => h.free other (hlink other hother).2⟩
  · change Function.update s.link socketfd .closed other = .unused at hother
    by_cases ho : other = socketfd
    · rw [ho, Function.update_self] at hother
      cases hother
    · rw [Function.update_of_ne ho] at hother
      exact h.unused other hother
  · exact h.wellFormed.begun other

/-- Where no other thread holds the mutex, only the one that moves may hold it afterwards. -/
theorem holder_of_set {s t : Senders} {i : ℕ} {p' : Sender}
    (hothers : ∀ (j : ℕ) (q : Sender), j ≠ i → s.threads[j]? = some q → q.Holds = false)
    (hthreads : t.threads = s.threads.set i p') (j : ℕ) (q : Sender)
    (hq : t.threads[j]? = some q) (hqholds : q.Holds = true) : j = i ∧ q = p' := by
  rw [hthreads] at hq
  rcases getElem?_set_cases hq with hq | ⟨hj, hq⟩
  · exact hq
  · rw [hothers j q hj hq] at hqholds
    cases hqholds

/-- The thread with the mutex moves on and keeps it. -/
theorem Orderly.holder {s t : Senders} (h : Orderly s) {i : ℕ} {p p' : Sender}
    (hp : s.threads[i]? = some p) (hholds : p.Holds = true) (hholds' : p'.Holds = true)
    (hthreads : t.threads = s.threads.set i p') (hmutex : t.mutex = s.mutex)
    (hlist : ∀ node ∈ t.list, node ∈ s.list) (hlink : t.link = s.link)
    (hstreams : ∀ socketfd, s.link socketfd ≠ .open → t.streams socketfd = s.streams socketfd)
    (hstands : ∀ socketfd, s.link socketfd = .open → p.Stands socketfd (s.streams socketfd) →
      p'.Stands socketfd (t.streams socketfd)) : Orderly t := by
  have hothers : ∀ (j : ℕ) (q : Sender), j ≠ i → s.threads[j]? = some q → q.Holds = false := by
    intro j q hj hq
    by_contra hqholds
    exact hj (h.exclusive j i q p hq hp (by simpa using hqholds) hholds)
  have honly := holder_of_set hothers hthreads
  constructor
  · intro j q hq hqholds
    rw [hmutex]
    exact h.locked i p hp hholds
  · intro j k q r hq hr hqholds hrholds
    rw [(honly j q hq hqholds).1, (honly k r hr hrholds).1]
  · exact fun node hnode => h.ints node (hlist node hnode)
  · intro socketfd hsocket
    rw [hlink] at hsocket
    rw [hstreams socketfd (by rw [hsocket]; nofun)]
    exact h.unused socketfd hsocket
  · intro socketfd hsocket
    rw [hlink] at hsocket
    rw [hstreams socketfd hsocket]
    exact h.begun socketfd hsocket
  · intro socketfd hsocket j q hq hqholds
    obtain ⟨-, rfl⟩ := honly j q hq hqholds
    rw [hlink] at hsocket
    exact hstands socketfd hsocket (h.held socketfd hsocket i p hp hholds)
  · intro socketfd _ hnone
    have hmem : p' ∈ t.threads := hthreads ▸ mem_set_self hp
    rw [hnone p' hmem] at hholds'
    cases hholds'

/-- A thread without the mutex moves on without it, and may add whole transmissions. -/
theorem Orderly.bystander {s t : Senders} (h : Orderly s) {i : ℕ} {p p' : Sender}
    (hp : s.threads[i]? = some p) (hholds : p.Holds = false) (hholds' : p'.Holds = false)
    (hthreads : t.threads = s.threads.set i p') (hmutex : t.mutex = s.mutex)
    (hlist : t.list = s.list) (hlink : t.link = s.link)
    (hstreams : ∀ socketfd, t.streams socketfd = s.streams socketfd ∨
      s.link socketfd = .open ∧ (∀ q ∈ s.threads, q.midway ≠ some socketfd) ∧
        Whole Transmission (t.streams socketfd)) : Orderly t := by
  have hother : ∀ (j : ℕ) (q : Sender), t.threads[j]? = some q → q.Holds = true →
      s.threads[j]? = some q := by
    intro j q hq hqholds
    rw [hthreads] at hq
    rcases getElem?_set_cases hq with ⟨-, rfl⟩ | ⟨-, hq⟩
    · rw [hholds'] at hqholds
      cases hqholds
    · exact hq
  have hkept : ∀ socketfd, s.link socketfd ≠ .open →
      t.streams socketfd = s.streams socketfd := by
    intro socketfd hsocket
    rcases hstreams socketfd with hsame | ⟨hopen, -⟩
    · exact hsame
    · exact absurd hopen hsocket
  constructor
  · intro j q hq hqholds
    rw [hmutex]
    exact h.locked j q (hother j q hq hqholds) hqholds
  · intro j k q r hq hr hqholds hrholds
    exact h.exclusive j k q r (hother j q hq hqholds) (hother k r hr hrholds) hqholds hrholds
  · rw [hlist]
    exact h.ints
  · intro socketfd hsocket
    rw [hlink] at hsocket
    rw [hkept socketfd (by rw [hsocket]; nofun)]
    exact h.unused socketfd hsocket
  · intro socketfd hsocket
    rw [hlink] at hsocket
    rw [hkept socketfd hsocket]
    exact h.begun socketfd hsocket
  · intro socketfd hsocket j q hq hqholds
    rw [hlink] at hsocket
    have hq := hother j q hq hqholds
    rcases hstreams socketfd with hsame | ⟨-, hmidway, hwhole⟩
    · rw [hsame]
      exact h.held socketfd hsocket j q hq hqholds
    · exact ⟨fun hm => absurd hm (hmidway q (List.mem_of_getElem? hq)), fun _ => hwhole⟩
  · intro socketfd hsocket hnone
    rw [hlink] at hsocket
    rcases hstreams socketfd with hsame | ⟨-, -, hwhole⟩
    · rw [hsame]
      apply h.free socketfd hsocket
      apply holds_false_of_mem
      intro j q hq
      by_cases hj : j = i
      · subst hj
        obtain rfl := Option.some.inj (hp.symm.trans hq)
        exact hholds
      · have hq' : t.threads[j]? = some q := by rw [hthreads, List.getElem?_set_ne (Ne.symm hj), hq]
        exact hnone q (List.mem_of_getElem? hq')
    · exact hwhole

/-- The mutex changes its state while nobody holds it but perhaps the thread that moves. -/
theorem Orderly.mutex_step {s t : Senders} (h : Orderly s) {i : ℕ} {p p' : Sender}
    (hp : s.threads[i]? = some p)
    (hothers : ∀ (j : ℕ) (q : Sender), j ≠ i → s.threads[j]? = some q → q.Holds = false)
    (hmidway : p.midway = none) (hmidway' : p'.midway = none)
    (hmutex : p'.Holds = true → t.mutex = true)
    (hthreads : t.threads = s.threads.set i p') (hlist : t.list = s.list)
    (hlink : t.link = s.link) (hstreams : t.streams = s.streams) : Orderly t := by
  have honly := holder_of_set hothers hthreads
  have hwhole : ∀ socketfd, s.link socketfd = .open →
      Whole Transmission (s.streams socketfd) := by
    intro socketfd hsocket
    apply h.whole hsocket
    intro q hq hm
    obtain ⟨j, hj⟩ := List.mem_iff_getElem?.mp hq
    by_cases hji : j = i
    · subst hji
      obtain rfl := Option.some.inj (hp.symm.trans hj)
      rw [hmidway] at hm
      cases hm
    · have hqholds := Sender.holds_of_midway hm
      rw [hothers j q hji hj] at hqholds
      cases hqholds
  constructor
  · intro j q hq hqholds
    obtain ⟨-, rfl⟩ := honly j q hq hqholds
    exact hmutex hqholds
  · intro j k q r hq hr hqholds hrholds
    rw [(honly j q hq hqholds).1, (honly k r hr hrholds).1]
  · rw [hlist]
    exact h.ints
  · rw [hlink, hstreams]
    exact h.unused
  · rw [hlink, hstreams]
    exact h.begun
  · intro socketfd hsocket j q hq hqholds
    rw [hlink] at hsocket
    obtain ⟨-, rfl⟩ := honly j q hq hqholds
    rw [hstreams]
    refine ⟨fun hm => ?_, fun _ => hwhole socketfd hsocket⟩
    rw [hmidway'] at hm
    cases hm
  · intro socketfd hsocket _
    rw [hlink] at hsocket
    rw [hstreams]
    exact hwhole socketfd hsocket

/-! ## Steps and runs -/

theorem sendPacket_cases {s : Senders} {socketfd : ℕ} {packet : Packet} {failure : SendResult}
    {sent : Senders × SendResult} (h : s.sendPacket socketfd packet failure = some sent) :
    (s.link socketfd = .open ∧ sent.2 = .ok ∧ sent.1 = { s with
      streams := Function.update s.streams socketfd (s.streams socketfd ++ [packet]) }) ∨
    (s.link socketfd ≠ .open ∧ sent.2 ≠ .ok ∧ sent.1 = s) := by
  unfold sendPacket at h
  split at h
  · rename_i hopen
    obtain rfl := Option.some.inj h
    exact Or.inl ⟨hopen, rfl, rfl⟩
  · rename_i hopen
    split at h
    · cases h
    · rename_i hfailure
      obtain rfl := Option.some.inj h
      exact Or.inr ⟨hopen, hfailure, rfl⟩

/-- The thread with the mutex sends a packet. -/
theorem Orderly.holder_send {s : Senders} (h : Orderly s) {i socketfd : ℕ} {p p' : Sender}
    {packet : Packet} {failure : SendResult} {sent : Senders × SendResult}
    (hp : s.threads[i]? = some p) (hholds : p.Holds = true) (hholds' : p'.Holds = true)
    (hsend : s.sendPacket socketfd packet failure = some sent)
    (hwrites : s.link socketfd = .open → ∀ stream, p.Stands socketfd stream →
      p'.Stands socketfd (stream ++ [packet]))
    (helsewhere : ∀ other, other ≠ socketfd → p.midway ≠ some other ∧ p'.midway ≠ some other) :
    Orderly (sent.1.goto i p') := by
  rcases sendPacket_cases hsend with ⟨hopen, -, hsent⟩ | ⟨hopen, -, hsent⟩
  · rw [hsent]
    refine h.holder hp hholds hholds' rfl rfl (fun _ hnode => hnode) rfl
      (fun other hother => ?_) (fun other hother hstands => ?_)
    · refine Function.update_of_ne (fun ho => hother ?_) _ _
      rw [ho]
      exact hopen
    · change p'.Stands other (Function.update s.streams socketfd _ other)
      by_cases ho : other = socketfd
      · subst ho
        rw [Function.update_self]
        exact hwrites hopen _ hstands
      · rw [Function.update_of_ne ho]
        exact hstands.of_ne (helsewhere other ho).1 (helsewhere other ho).2
  · rw [hsent]
    refine h.holder hp hholds hholds' rfl rfl (fun _ hnode => hnode) rfl (fun _ _ => rfl)
      (fun other hother hstands => ?_)
    have ho : other ≠ socketfd := by
      rintro rfl
      exact hopen hother
    exact hstands.of_ne (helsewhere other ho).1 (helsewhere other ho).2

/-- A new thread does not hold the mutex. -/
theorem Orderly.spawn {s : Senders} (h : Orderly s) {p : Sender} (hp : p.Holds = false) :
    Orderly { s with threads := s.threads ++ [p] } := by
  have hother : ∀ (j : ℕ) (q : Sender), (s.threads ++ [p])[j]? = some q → q.Holds = true →
      s.threads[j]? = some q := by
    intro j q hq hqholds
    rw [List.getElem?_append] at hq
    split at hq
    · exact hq
    · obtain rfl := List.mem_singleton.mp (List.mem_of_getElem? hq)
      rw [hp] at hqholds
      cases hqholds
  refine ⟨fun j q hq hqholds => h.locked j q (hother j q hq hqholds) hqholds,
    fun j k q r hq hr hqholds hrholds => h.exclusive j k q r (hother j q hq hqholds)
      (hother k r hr hrholds) hqholds hrholds, h.ints, h.unused, h.begun,
    fun socketfd hsocket j q hq hqholds => h.held socketfd hsocket j q (hother j q hq hqholds)
      hqholds, fun socketfd hsocket hnone => ?_⟩
  exact h.free socketfd hsocket fun q hq => hnone q (List.mem_append_left _ hq)

/-- A replica joins while nobody holds the mutex. -/
theorem Orderly.join {s : Senders} (h : Orderly s) {list : List ReplicaNode} {socketfd : ℕ}
    (hmutex : s.mutex = false) (hunused : s.link socketfd = .unused)
    (hlist : ∀ node ∈ list, IsInt node.id ∧ IsInt node.listenerPort) :
    Orderly { s with
      list := list
      link := Function.update s.link socketfd .open } := by
  have hnobody : ∀ (j : ℕ) (q : Sender), s.threads[j]? = some q → q.Holds = false := by
    intro j q hq
    by_contra hqholds
    have hlocked := h.locked j q hq (by simpa using hqholds)
    rw [hmutex] at hlocked
    cases hlocked
  have hwhole : ∀ other, Function.update s.link socketfd .open other = .open →
      Whole Transmission (s.streams other) := by
    intro other hother
    by_cases ho : other = socketfd
    · rw [ho, h.unused socketfd hunused]
      exact whole_nil
    · rw [Function.update_of_ne ho] at hother
      exact h.free other hother (holds_false_of_mem hnobody)
  refine ⟨h.locked, h.exclusive, hlist, fun other hother => ?_,
    fun other _ => h.wellFormed.begun other, fun other hother j q hq hqholds => ?_,
    fun other hother _ => hwhole other hother⟩
  · change Function.update s.link socketfd .open other = .unused at hother
    by_cases ho : other = socketfd
    · rw [ho, Function.update_self] at hother
      cases hother
    · rw [Function.update_of_ne ho] at hother
      exact h.unused other hother
  · rw [hnobody j q hq] at hqholds
    cases hqholds

section Statements

variable {s t : Senders} {i socketfd fileSize : ℕ} {o : Outcome} {notice : Notice}
  {result : SendResult}

/-- The announcement of a file. -/
theorem Orderly.announceFile (h : Orderly s)
    (hp : s.threads[i]? = some (.announceFile notice socketfd result fileSize))
    (hstep : s.runThread i o (.announceFile notice socketfd result fileSize) = some t) :
    Orderly t := by
  obtain ⟨filename, hfilename, hstep⟩ := Option.bind_eq_some_iff.mp hstep
  obtain ⟨sent, hsend, rfl⟩ := Option.map_eq_some_iff.mp hstep
  split
  · refine h.holder_send hp rfl rfl hsend (fun _ stream hstands => ⟨fun _ => ?_, ?_⟩)
      (fun other hother => ⟨?_, ?_⟩)
    · obtain ⟨whole, part, rfl, hwhole, hup, rfl⟩ := hstands.midway rfl
      exact ⟨whole, _, List.append_assoc _ _ _, hwhole, hup, filename, [], hfilename, rfl,
        rfl, by simp, Nat.zero_le _⟩
    · exact fun hm => absurd rfl hm
    · exact fun hm => hother (Option.some.inj hm).symm
    · exact fun hm => hother (Option.some.inj hm).symm
  · rename_i hfailed
    refine h.holder_send hp rfl rfl hsend (fun hopen => ?_) (fun other hother => ⟨?_, nofun⟩)
    · rcases sendPacket_cases hsend with ⟨-, hok, -⟩ | ⟨hclosed, -, -⟩
      · exact absurd hok hfailed
      · exact absurd hopen hclosed
    · exact fun hm => hother (Option.some.inj hm).symm

/-- A packet of a file, or its end. -/
theorem Orderly.sendData {count : ℕ} (h : Orderly s)
    (hp : s.threads[i]? = some (.sendData notice socketfd result fileSize count))
    (hmeets : s.ThreadMeets o (.sendData notice socketfd result fileSize count))
    (hstep : s.runThread i o (.sendData notice socketfd result fileSize count) = some t) :
    Orderly t := by
  have helsewhere : ∀ other, other ≠ socketfd →
      (Sender.sendData notice socketfd result fileSize count).midway ≠ some other :=
    fun other hother hm => hother (Option.some.inj hm).symm
  cases hchunk : o.chunk with
  | none =>
      simp only [runThread, hchunk] at hstep
      obtain rfl := Option.some.inj hstep
      refine h.holder hp rfl rfl rfl rfl (fun _ hnode => hnode) rfl (fun _ _ => rfl)
        (fun other hother hstands => ⟨nofun, fun _ => ?_⟩)
      by_cases ho : other = socketfd
      · subst ho
        refine hstands.whole_of_sendData fun filename hfilename => ?_
        have hfits := (hmeets hother filename hfilename).2 (by simp [Outcome.ends, hchunk])
        simpa [hchunk] using hfits
      · exact hstands.elsewhere (helsewhere other ho)
  | some chunk =>
      simp only [runThread, hchunk] at hstep
      split at hstep
      · cases hstep
      · obtain ⟨sent, hsend, rfl⟩ := Option.map_eq_some_iff.mp hstep
        have hsucc : s.link socketfd = .open → ∀ stream,
            (Sender.sendData notice socketfd result fileSize count).Stands socketfd stream →
            (Sender.sendData notice socketfd result fileSize (count + 1)).Stands socketfd
              (stream ++ [createTextPacket .data chunk]) := by
          intro hopen stream hstands
          refine hstands.sendData_succ (fun filename hfilename => ?_) chunk
          have hfits := (hmeets hopen filename hfilename).1
          simpa [hchunk] using hfits
        split
        · exact h.holder_send hp rfl rfl hsend hsucc
            (fun other hother => ⟨helsewhere other hother,
              fun hm => hother (Option.some.inj hm).symm⟩)
        · rename_i hlast
          refine h.holder_send hp rfl rfl hsend (fun hopen stream hstands => ⟨nofun, fun _ => ?_⟩)
            (fun other hother => ⟨helsewhere other hother, nofun⟩)
          refine (hsucc hopen stream hstands).whole_of_sendData fun filename hfilename => ?_
          have hshort : chunk.length ≠ fileChunkSize := by
            rcases sendPacket_cases hsend with ⟨-, hok, -⟩ | ⟨hclosed, -, -⟩
            · exact fun hlength => hlast ⟨hok, hlength⟩
            · exact absurd hopen hclosed
          have hfits := (hmeets hopen filename hfilename).2
            (by simp [Outcome.ends, hchunk, hshort])
          simpa [hchunk] using hfits

/-- A packet of the list for a replica that joined, or its end. -/
theorem Orderly.relay {current : Option ℕ} (h : Orderly s)
    (hp : s.threads[i]? = some (.relay socketfd current))
    (hmeets : s.ThreadMeets o (.relay socketfd current))
    (hstep : s.runThread i o (.relay socketfd current) = some t) : Orderly t := by
  cases current with
  | none =>
      obtain rfl := Option.some.inj hstep
      refine h.mutex_step hp (fun j q _ hq => hmeets q (List.mem_of_getElem? hq)) rfl rfl ?_
        rfl rfl rfl rfl
      nofun
  | some current =>
      obtain ⟨nodes, hnodes, hstep⟩ := Option.bind_eq_some_iff.mp hstep
      obtain ⟨node, hnode, hstep⟩ := Option.bind_eq_some_iff.mp hstep
      obtain ⟨sent, hsend, rfl⟩ := Option.map_eq_some_iff.mp hstep
      have hint := h.ints node (mem_chainFrom hnodes (List.mem_of_mem_head? hnode))
      rcases sendPacket_cases hsend with ⟨hopen, -, hsent⟩ | ⟨hclosed, -, hsent⟩
      · rw [hsent]
        refine h.bystander hp rfl rfl rfl rfl rfl rfl fun other => ?_
        change Function.update s.streams socketfd _ other = s.streams other ∨ _
        by_cases ho : other = socketfd
        · subst ho
          refine Or.inr ⟨hopen, hmeets hopen, ?_⟩
          change Whole Transmission (Function.update s.streams other _ other)
          rw [Function.update_self]
          exact (h.whole hopen (hmeets hopen)).append
            (whole_of_frame (transmission_addedEvent hint.1 hint.2))
        · exact Or.inl (Function.update_of_ne ho _ _)
      · rw [hsent]
        exact h.bystander hp rfl rfl rfl rfl rfl rfl fun _ => Or.inl rfl

/-- Each statement of a thread that meets the condition keeps the connections in order. -/
theorem orderly_runThread {p : Sender} (h : Orderly s) (hp : s.threads[i]? = some p)
    (hmeets : s.ThreadMeets o p) (hstep : s.runThread i o p = some t) : Orderly t := by
  cases p with
  | lockList notice =>
      simp only [runThread] at hstep
      split at hstep
      · cases hstep
      · rename_i hmutex
        obtain rfl := Option.some.inj hstep
        refine h.mutex_step hp (fun j q _ hq => ?_) rfl (Sender.midway_walk _ _)
          (fun _ => rfl) rfl rfl rfl rfl
        by_contra hqholds
        exact hmutex (h.locked j q hq (by simpa using hqholds))
  | sendMessage notice socketfd =>
      obtain ⟨sent, hsend, rfl⟩ := Option.map_eq_some_iff.mp hstep
      refine h.holder_send hp rfl (Sender.holds_follow _ _ _) hsend
        (fun hopen stream hstands => ?_) (fun other hother => ⟨nofun, fun hm => ?_⟩)
      · exact Sender.stands_follow (hstands.elsewhere nofun) (hmeets hopen)
      · exact hother (Sender.eq_of_midway_follow hm)
  | openFile notice socketfd result =>
      simp only [runThread] at hstep
      split at hstep
      · rename_i hnone
        obtain rfl := Option.some.inj hstep
        refine h.holder hp rfl rfl rfl rfl (fun _ hnode => hnode) rfl (fun _ _ => rfl)
          (fun other hother hstands => hstands.of_ne (fun hm => ?_) nofun)
        obtain rfl := Option.some.inj hm
        have hsome := hmeets hother
        rw [hnone] at hsome
        cases hsome
      · obtain rfl := Option.some.inj hstep
        refine h.holder hp rfl rfl rfl rfl (fun _ hnode => hnode) rfl (fun _ _ => rfl)
          (fun other hother hstands => ⟨hstands.midway, hstands.elsewhere⟩)
  | announceFile notice socketfd result fileSize => exact h.announceFile hp hstep
  | sendData notice socketfd result fileSize count => exact h.sendData hp hmeets hstep
  | sendDelete notice socketfd result =>
      obtain ⟨filename, hfilename, hstep⟩ := Option.bind_eq_some_iff.mp hstep
      obtain ⟨sent, hsend, rfl⟩ := Option.map_eq_some_iff.mp hstep
      refine h.holder_send hp rfl rfl hsend (fun _ stream hstands => ⟨nofun, fun _ => ?_⟩)
        (fun other hother => ⟨fun hm => hother (Option.some.inj hm).symm, nofun⟩)
      obtain ⟨whole, part, rfl, hwhole, hdel, rfl⟩ := hstands.midway rfl
      rw [List.append_assoc]
      exact hwhole.append (whole_of_frame (transmission_delete hdel rfl))
  | advance notice socketfd result =>
      obtain ⟨nodes, hnodes, rfl⟩ := Option.map_eq_some_iff.mp hstep
      split
      · refine (h.close socketfd).holder hp rfl (Sender.holds_walk _ _) rfl rfl
          (fun node hnode => List.mem_of_mem_eraseP hnode) rfl (fun _ _ => rfl)
          (fun other hother hstands => hstands.of_ne nofun ?_)
        rw [Sender.midway_walk]
        nofun
      · refine h.holder hp rfl (Sender.holds_walk _ _) rfl rfl (fun node hnode => hnode) rfl
          (fun _ _ => rfl) (fun other hother hstands => hstands.of_ne nofun ?_)
        rw [Sender.midway_walk]
        nofun
  | unlockList notice =>
      have hothers : ∀ (j : ℕ) (q : Sender), j ≠ i → s.threads[j]? = some q →
          q.Holds = false := by
        intro j q hj hq
        by_contra hqholds
        exact hj (h.exclusive j i q _ hq hp (by simpa using hqholds) rfl)
      simp only [runThread] at hstep
      split at hstep
      · obtain rfl := Option.some.inj hstep
        refine h.mutex_step hp hothers rfl rfl ?_ rfl rfl rfl rfl
        nofun
      · obtain rfl := Option.some.inj hstep
        refine h.mutex_step hp hothers rfl rfl ?_ rfl rfl rfl rfl
        nofun
  | relayHead socketfd =>
      obtain rfl := Option.some.inj hstep
      exact h.bystander hp rfl rfl rfl rfl rfl rfl fun _ => Or.inl rfl
  | relay socketfd current => exact h.relay hp hmeets hstep
  | relayNext socketfd current =>
      obtain ⟨nodes, -, rfl⟩ := Option.map_eq_some_iff.mp hstep
      exact h.bystander hp rfl rfl rfl rfl rfl rfl fun _ => Or.inl rfl
  | returned => cases hstep

end Statements

theorem orderly_step {s t : Senders} {a : Action} (h : Orderly s) (hmeets : s.Meets a)
    (hstep : step s a = some t) : Orderly t := by
  cases a with
  | notify event =>
      obtain rfl := Option.some.inj hstep
      exact h.spawn rfl
  | accept node =>
      simp only [step] at hstep
      split at hstep
      · cases hstep
      · rename_i hguard
        simp only [not_or, not_not, Bool.not_eq_true] at hguard
        obtain ⟨hmutex, hunused, hid, hport⟩ := hguard
        obtain ⟨list, hlist, rfl⟩ := Option.map_eq_some_iff.mp hstep
        refine (h.join hmutex hunused fun other hother => ?_).spawn rfl
        unfold addReplica at hlist
        split at hlist
        · cases hlist
        · obtain rfl := Option.some.inj hlist
          rcases List.mem_cons.mp hother with rfl | hother
          · exact ⟨hid, hport⟩
          · exact h.ints other hother
  | run i o =>
      obtain ⟨p, hp, hstep⟩ := Option.bind_eq_some_iff.mp hstep
      exact orderly_runThread h hp (hmeets p hp) hstep
  | close socketfd =>
      simp only [step] at hstep
      split at hstep
      · obtain rfl := Option.some.inj hstep
        exact h.close socketfd
      · cases hstep

/-- While the condition is met, every connection carries complete transmissions. -/
theorem streams_wellFormed {as : List Action} (h : Along step Meets initial as) :
    Always step WellFormed initial as :=
  (h.always (fun _ _ _ hs hmeets hstep => orderly_step hs hmeets hstep) orderly_initial).mono
    fun _ hs => hs.wellFormed

/-! ## Runs with one replica -/

instance (s : Senders) (o : Outcome) : ∀ p, Decidable (s.ThreadMeets o p)
  | .lockList _ => .isTrue trivial
  | .sendMessage notice socketfd => inferInstanceAs (Decidable
      (s.link socketfd = .open → notice.event.received.type = notice.event.type))
  | .openFile _ socketfd _ => inferInstanceAs (Decidable
      (s.link socketfd = .open → o.fileSize.isSome = true))
  | .announceFile _ _ _ _ => .isTrue trivial
  | .sendData notice socketfd _ fileSize sent => inferInstanceAs (Decidable
      (s.link socketfd = .open → ∀ filename ∈ notice.event.filepath,
        o.Fits sent (announcedPackets (fileAnnouncementPacket filename fileSize))))
  | .sendDelete _ _ _ => .isTrue trivial
  | .advance _ _ _ => .isTrue trivial
  | .unlockList _ => .isTrue trivial
  | .relayHead _ => .isTrue trivial
  | .relay socketfd (some _) => inferInstanceAs (Decidable
      (s.link socketfd = .open → ∀ p ∈ s.threads, p.midway ≠ some socketfd))
  | .relay _ none => inferInstanceAs (Decidable (∀ p ∈ s.threads, p.Holds = false))
  | .relayNext _ _ => .isTrue trivial
  | .returned => .isTrue trivial

instance (s : Senders) : ∀ a, Decidable (s.Meets a)
  | .notify _ => .isTrue trivial
  | .accept _ => .isTrue trivial
  | .run i o => inferInstanceAs (Decidable (∀ p ∈ s.threads[i]?, s.ThreadMeets o p))
  | .close _ => .isTrue trivial

def replicaNode : ReplicaNode := ⟨2, 4, 4003, ⟨⟨127, 0, 0, 1⟩, 5000⟩⟩

def uploadOfAlice : ReplicaEvent :=
  createFileUploadEvent [97, 108, 105, 99, 101] ⟨⟨127, 0, 0, 1⟩, 5001⟩ [102]

def deletionOfAlice : ReplicaEvent :=
  createFileDeleteEvent [97, 108, 105, 99, 101] ⟨⟨127, 0, 0, 1⟩, 5001⟩ [102]

/-- Thread `i` takes `n` steps that send, or read nothing. -/
def go (i n : ℕ) : List Action := List.replicate n (.run i ⟨.failed, none, none⟩)

/-- The replica joins; a file of two chunks is uploaded and deleted; a heartbeat follows. -/
def replicated : List Action :=
  [.accept replicaNode] ++ go 0 8 ++
    [.notify uploadOfAlice] ++ go 1 2 ++ [.run 1 ⟨.failed, some 1500, none⟩] ++ go 1 1 ++
    [.run 1 ⟨.failed, none, some (List.replicate 1000 0)⟩,
      .run 1 ⟨.failed, none, some (List.replicate 500 0)⟩] ++ go 1 2 ++
    [.notify deletionOfAlice, .notify createHeartbeatEvent] ++ go 2 5 ++ go 3 4

theorem replicated_wellFormed : Always step WellFormed initial replicated :=
  streams_wellFormed (by decide +kernel)

/-- The uploaded file does not open, and the event of a heartbeat follows the upload. -/
def fileMissing : List Action :=
  [.accept replicaNode] ++ go 0 8 ++ [.notify uploadOfAlice] ++ go 1 5 ++
    [.notify createHeartbeatEvent] ++ go 2 2

/-- The thread of the joining replica sends between an upload and its announcement. -/
def relayedBetween : List Action :=
  [.accept replicaNode] ++ go 0 5 ++ [.notify uploadOfAlice] ++ go 1 2 ++ go 0 1

theorem transmission_added : Transmission [eventPacket replicaNode.addedEvent] :=
  transmission_addedEvent (by decide) (by decide)

theorem stream_not_wellFormed :
    ¬Always step WellFormed initial fileMissing ∧
      ¬Always step WellFormed initial relayedBetween := by
  have hup : uploadOfAlice.received.type = .fileUploaded := by decide +kernel
  constructor
  · intro h
    have hrun : ∃ t ∈ run step initial fileMissing, t.streams 4 =
        [eventPacket replicaNode.addedEvent, eventPacket replicaNode.addedEvent] ++
          [eventPacket uploadOfAlice, eventPacket createHeartbeatEvent] := by decide +kernel
    obtain ⟨t, ht, hstream⟩ := hrun
    have hbegun := (h.last ht).begun 4
    rw [hstream] at hbegun
    refine not_begun_of_upload (by simp [transmission_added]) hup ?_ hbegun
    nofun
  · intro h
    have hrun : ∃ t ∈ run step initial relayedBetween, t.streams 4 =
        [eventPacket replicaNode.addedEvent] ++
          [eventPacket uploadOfAlice, eventPacket replicaNode.addedEvent] := by decide +kernel
    obtain ⟨t, ht, hstream⟩ := hrun
    have hbegun := (h.last ht).begun 4
    rw [hstream] at hbegun
    refine not_begun_of_upload (by simp [transmission_added]) hup ?_ hbegun
    nofun

end Senders

end SyncServer
