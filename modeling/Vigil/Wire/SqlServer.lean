import Vigil.Lib.Growing
import Mathlib.Data.Nat.Notation

/-! `takeMessage` of `monitors/types/probes/sqlserver.ts`, which takes one TDS message off the front
of what has arrived, and the pump that calls it again on every chunk.  The loop is given fuel, and
one more than the bytes at hand are enough, because every packet it goes past has a header. -/

namespace Vigil.Wire.SqlServer

open Lib.Growing

def packetHeaderBytes : ℕ := 8

def packetTabularResult : UInt8 := 0x04

def statusEndOfMessage : UInt8 := 0x01

def maxPacketBytes : ℕ := 32767

def maxMessageBytes : ℕ := 256 * 1024

/-- What is taken from the buffer. -/
inductive MessageTake where
  | incomplete
  | invalid
  | message (payload rest : List UInt8)
  deriving DecidableEq, Repr

/-- The header of a packet. -/
structure PacketHeader where
  type : UInt8
  status : UInt8
  length : ℕ

/-- The header at the front, unless fewer bytes than a header has are there. -/
def readHeader : List UInt8 → Option PacketHeader
  | type :: status :: high :: low :: _ :: _ :: _ :: _ :: _ =>
    some ⟨type, status, high.toNat * 256 + low.toNat⟩
  | _ => none

/-- What one turn of the loop finds. -/
inductive PacketRead where
  | incomplete
  | invalid
  | packet (payload rest : List UInt8) (total : ℕ) (endOfMessage : Bool)
  deriving DecidableEq

/-- One turn of the loop: `total` is what the packets before had, and `buffer` stands from `offset`
on. -/
def readPacket (total : ℕ) (buffer : List UInt8) : PacketRead :=
  match readHeader buffer with
  | none => .incomplete
  | some header =>
    if header.type ≠ packetTabularResult then .invalid
    else if header.length < packetHeaderBytes ∨ maxPacketBytes < header.length then .invalid
    else
      let total := total + (header.length - packetHeaderBytes)
      if maxMessageBytes < total then .invalid
      else if buffer.length < header.length then .incomplete
      else .packet ((buffer.take header.length).drop packetHeaderBytes)
        (buffer.drop header.length) total (header.status &&& statusEndOfMessage ≠ 0)

/-- The loop of `takeMessage`; `none` when the fuel is spent. -/
def takeLoop : ℕ → List (List UInt8) → ℕ → List UInt8 → Option MessageTake
  | 0, _, _, _ => none
  | fuel + 1, payloads, total, buffer =>
    match readPacket total buffer with
    | .incomplete => some .incomplete
    | .invalid => some .invalid
    | .packet payload rest _ true => some (.message (payloads ++ [payload]).flatten rest)
    | .packet payload rest total false => takeLoop fuel (payloads ++ [payload]) total rest

def takeMessage (buffer : List UInt8) : MessageTake :=
  (takeLoop (buffer.length + 1) [] 0 buffer).getD .incomplete

/-! ### One packet -/

variable {buffer payload rest : List UInt8} {total total' fuel : ℕ}

theorem readHeader_append {header : PacketHeader} (h : readHeader buffer = some header)
    (more : List UInt8) : readHeader (buffer ++ more) = some header := by
  unfold readHeader at h
  split at h
  · exact h
  · cases h

theorem readPacket_invalid_append (h : readPacket total buffer = .invalid) (more : List UInt8) :
    readPacket total (buffer ++ more) = .invalid := by
  unfold readPacket at h ⊢
  cases hheader : readHeader buffer with
  | none => simp [hheader] at h
  | some header =>
    rw [readHeader_append hheader]
    simp only [hheader] at h ⊢
    grind

theorem readPacket_packet_append {last : Bool}
    (h : readPacket total buffer = .packet payload rest total' last) (more : List UInt8) :
    readPacket total (buffer ++ more) = .packet payload (rest ++ more) total' last := by
  unfold readPacket at h ⊢
  cases hheader : readHeader buffer with
  | none => simp [hheader] at h
  | some header =>
    rw [readHeader_append hheader]
    simp only [hheader] at h ⊢
    grind

theorem length_of_readPacket {last : Bool}
    (h : readPacket total buffer = .packet payload rest total' last) :
    rest.length + packetHeaderBytes ≤ buffer.length := by
  unfold readPacket at h
  cases hheader : readHeader buffer with
  | none => simp [hheader] at h
  | some header =>
    simp only [hheader] at h
    grind

/-! ### The loop -/

theorem takeLoop_of_last {payloads : List (List UInt8)}
    (h : readPacket total buffer = .packet payload rest total' true) :
    takeLoop (fuel + 1) payloads total buffer =
      some (.message (payloads ++ [payload]).flatten rest) := by
  rw [takeLoop, h]

theorem takeLoop_of_more {payloads : List (List UInt8)}
    (h : readPacket total buffer = .packet payload rest total' false) :
    takeLoop (fuel + 1) payloads total buffer =
      takeLoop fuel (payloads ++ [payload]) total' rest := by
  rw [takeLoop, h]

theorem takeLoop_isSome : ∀ (payloads : List (List UInt8)) (total : ℕ) {fuel : ℕ}
    {buffer : List UInt8}, buffer.length < fuel →
      ∃ take, takeLoop fuel payloads total buffer = some take
  | _, _, 0, _, h => absurd h (Nat.not_lt_zero _)
  | payloads, total, fuel + 1, buffer, h => by
    rw [takeLoop]
    cases hread : readPacket total buffer with
    | incomplete => exact ⟨_, rfl⟩
    | invalid => exact ⟨_, rfl⟩
    | packet payload rest total' last =>
      cases last with
      | true => exact ⟨_, rfl⟩
      | false =>
        have hlength := length_of_readPacket hread
        refine takeLoop_isSome _ _ ?_
        unfold packetHeaderBytes at hlength
        omega

theorem takeLoop_mono : ∀ {fuel fuel' : ℕ} {payloads : List (List UInt8)} {total : ℕ}
    {buffer : List UInt8} {take : MessageTake}, fuel ≤ fuel' →
      takeLoop fuel payloads total buffer = some take →
        takeLoop fuel' payloads total buffer = some take
  | 0, _, _, _, _, _, _, h => by cases h
  | fuel + 1, 0, _, _, _, _, hle, _ => absurd hle (Nat.not_succ_le_zero _)
  | fuel + 1, fuel' + 1, payloads, total, buffer, take, hle, h => by
    rw [takeLoop] at h ⊢
    cases hread : readPacket total buffer with
    | incomplete => simpa [hread] using h
    | invalid => simpa [hread] using h
    | packet payload rest total' last =>
      rw [hread] at h
      cases last with
      | true => exact h
      | false => exact takeLoop_mono (Nat.le_of_succ_le_succ hle) h

theorem takeLoop_append : ∀ (fuel : ℕ) (payloads : List (List UInt8)) (total : ℕ)
    (buffer more : List UInt8),
      (takeLoop fuel payloads total buffer = some .invalid →
        takeLoop fuel payloads total (buffer ++ more) = some .invalid) ∧
      ∀ payload rest, takeLoop fuel payloads total buffer = some (.message payload rest) →
        takeLoop fuel payloads total (buffer ++ more) = some (.message payload (rest ++ more))
  | 0, _, _, _, _ => ⟨fun h => (by cases h), fun _ _ h => (by cases h)⟩
  | fuel + 1, payloads, total, buffer, more => by
    rw [takeLoop, takeLoop]
    cases hread : readPacket total buffer with
    | incomplete => exact ⟨fun h => (by cases h), fun _ _ h => (by cases h)⟩
    | invalid =>
      rw [readPacket_invalid_append hread]
      exact ⟨fun _ => rfl, fun _ _ h => (by cases h)⟩
    | packet piece rest total' last =>
      rw [readPacket_packet_append hread]
      cases last with
      | true =>
        refine ⟨fun h => (by cases h), fun payload left h => ?_⟩
        obtain ⟨rfl, rfl⟩ := MessageTake.message.inj (Option.some.inj h)
        rfl
      | false => exact takeLoop_append _ _ _ _ _

theorem takeMessage_eq_of_takeLoop {take : MessageTake}
    (h : takeLoop fuel [] 0 buffer = some take) : takeMessage buffer = take := by
  obtain ⟨found, hfound⟩ := takeLoop_isSome [] 0 (Nat.lt_succ_self buffer.length)
  have hmore := takeLoop_mono (Nat.le_max_left fuel (buffer.length + 1)) h
  have hfull := takeLoop_mono (Nat.le_max_right fuel (buffer.length + 1)) hfound
  rw [takeMessage, hfound]
  exact Option.some.inj (hfull.symm.trans hmore)

theorem takeLoop_eq_of_takeMessage {take : MessageTake} (h : takeMessage buffer = take)
    (hfuel : buffer.length < fuel) : takeLoop fuel [] 0 buffer = some take := by
  obtain ⟨found, hfound⟩ := takeLoop_isSome [] 0 hfuel
  rw [hfound, ← h, takeMessage_eq_of_takeLoop hfound]

/-! ### The framing -/

/-- What a packet of the server says besides its type and its length. -/
structure PacketMark where
  status : UInt8
  spid : UInt8 × UInt8
  packetId : UInt8
  window : UInt8

/-- A packet of type `packetTabularResult`. -/
def tabularPacket (mark : PacketMark) (payload : List UInt8) : List UInt8 :=
  let length := packetHeaderBytes + payload.length
  packetTabularResult :: mark.status :: (length / 256).toUInt8 :: (length % 256).toUInt8 ::
    mark.spid.1 :: mark.spid.2 :: mark.packetId :: mark.window :: payload

/-- `framePacket(PACKET_TABULAR_RESULT, payload)` -/
def framePacket (payload : List UInt8) : List UInt8 :=
  tabularPacket ⟨statusEndOfMessage, (0, 0), 1, 0⟩ payload

/-- Whether a packet is marked as the last of its message. -/
def PacketMark.last (mark : PacketMark) : Bool := mark.status &&& statusEndOfMessage ≠ 0

theorem length_tabularPacket (mark : PacketMark) (payload : List UInt8) :
    (tabularPacket mark payload).length = packetHeaderBytes + payload.length := by
  simp only [tabularPacket, packetHeaderBytes, List.length_cons]
  omega

theorem readHeader_tabularPacket (mark : PacketMark)
    (hpacket : packetHeaderBytes + payload.length < 65536) (rest : List UInt8) :
    readHeader (tabularPacket mark payload ++ rest) =
      some ⟨packetTabularResult, mark.status, packetHeaderBytes + payload.length⟩ := by
  have hlength : ((packetHeaderBytes + payload.length) / 256).toUInt8.toNat * 256 +
      ((packetHeaderBytes + payload.length) % 256).toUInt8.toNat =
        packetHeaderBytes + payload.length := by
    simp only [Nat.toUInt8, UInt8.toNat_ofNat']
    omega
  exact congrArg (fun length => some (PacketHeader.mk packetTabularResult mark.status length)) hlength

/-- A packet that fits is read back, with what follows it. -/
theorem readPacket_tabularPacket (mark : PacketMark)
    (hpacket : packetHeaderBytes + payload.length ≤ maxPacketBytes)
    (htotal : total + payload.length ≤ maxMessageBytes) (rest : List UInt8) :
    readPacket total (tabularPacket mark payload ++ rest) =
      .packet payload rest (total + payload.length) mark.last := by
  have hheader := readHeader_tabularPacket mark
    (Nat.lt_of_le_of_lt hpacket (by decide : maxPacketBytes < 65536)) rest
  have hsize := length_tabularPacket mark payload
  have htake : (tabularPacket mark payload ++ rest).take (packetHeaderBytes + payload.length) =
      tabularPacket mark payload := List.take_left' hsize
  have hdrop : (tabularPacket mark payload ++ rest).drop (packetHeaderBytes + payload.length) =
      rest := List.drop_left' hsize
  unfold readPacket
  rw [hheader]
  dsimp only
  rw [if_neg fun hne => hne rfl, if_neg (by omega), if_neg (by omega),
    if_neg (by rw [List.length_append]; omega), htake, hdrop, Nat.add_sub_cancel_left]
  rfl

/-- Only the last of some packets is marked as the last of its message. -/
def OnlyLastMarked (packets : List (PacketMark × List UInt8)) : Prop :=
  ∃ before final, packets = before ++ [final] ∧ (∀ packet ∈ before, packet.1.last = false) ∧
    final.1.last = true

/-- What a server that frames payloads in such packets sends. -/
def packetStream (packets : List (PacketMark × List UInt8)) : List UInt8 :=
  packets.flatMap fun packet => tabularPacket packet.1 packet.2

def payloadOf (packets : List (PacketMark × List UInt8)) : List UInt8 :=
  packets.flatMap fun packet => packet.2

theorem takeLoop_packets {final : PacketMark × List UInt8} (hlast : final.1.last = true)
    (rest : List UInt8) :
    ∀ (before : List (PacketMark × List UInt8)) (fuel : ℕ) (payloads : List (List UInt8))
      (total : ℕ), (∀ packet ∈ before, packet.1.last = false) →
      (∀ packet ∈ before ++ [final], packetHeaderBytes + packet.2.length ≤ maxPacketBytes) →
      total + (payloadOf (before ++ [final])).length ≤ maxMessageBytes →
      before.length < fuel →
        takeLoop fuel payloads total (packetStream (before ++ [final]) ++ rest) =
          some (.message (payloads.flatten ++ payloadOf (before ++ [final])) rest)
  | _, 0, _, _, _, _, _, hfuel => absurd hfuel (Nat.not_lt_zero _)
  | [], fuel + 1, payloads, total, _, hpackets, htotal, _ => by
    have hread := readPacket_tabularPacket final.1 (hpackets final (by simp))
      (by simpa [payloadOf] using htotal) rest
    rw [hlast] at hread
    simp only [List.nil_append, packetStream, payloadOf, List.flatMap_singleton]
    rw [takeLoop_of_last hread, List.flatten_append, List.flatten_singleton]
  | packet :: before, fuel + 1, payloads, total, hmarks, hpackets, htotal, hfuel => by
    simp only [List.cons_append, payloadOf, List.flatMap_cons, List.length_append] at htotal
    have hread := readPacket_tabularPacket packet.1 (hpackets packet (by simp))
      (Nat.le_trans (by omega) htotal : total + packet.2.length ≤ _) (packetStream (before ++ [final]) ++ rest)
    have hrest := takeLoop_packets hlast rest before fuel (payloads ++ [packet.2])
      (total + packet.2.length)
      (fun p hp => hmarks p (List.mem_cons_of_mem _ hp))
      (fun p hp => hpackets p (List.mem_cons_of_mem _ hp))
      (by simp only [payloadOf]; omega) (Nat.lt_of_succ_lt_succ hfuel)
    rw [hmarks packet List.mem_cons_self] at hread
    rw [List.cons_append, packetStream, List.flatMap_cons, List.append_assoc]
    refine (takeLoop_of_more hread).trans (hrest.trans ?_)
    simp only [payloadOf, List.flatMap_cons, List.flatten_append, List.flatten_singleton,
      List.append_assoc]

/-! ### The pump -/

/-- `takeMessage` as the pump reads it: it waits where the message is incomplete. -/
def pumpRead (buffer : List UInt8) : Option MessageTake :=
  match takeMessage buffer with
  | .incomplete => none
  | take => some take

/-- What arrives after a message stays for the next one. -/
def MessageTake.followedBy : MessageTake → List UInt8 → MessageTake
  | .message payload rest, more => .message payload (rest ++ more)
  | take, _ => take

theorem takeMessage_append (buffer more : List UInt8) :
    (takeMessage buffer = .invalid → takeMessage (buffer ++ more) = .invalid) ∧
    ∀ payload rest, takeMessage buffer = .message payload rest →
      takeMessage (buffer ++ more) = .message payload (rest ++ more) := by
  have happend := takeLoop_append (buffer.length + 1) [] 0 buffer more
  constructor
  · intro h
    have hloop := takeLoop_eq_of_takeMessage h (Nat.lt_succ_self buffer.length)
    exact takeMessage_eq_of_takeLoop (happend.1 hloop)
  · intro payload rest h
    have hloop := takeLoop_eq_of_takeMessage h (Nat.lt_succ_self buffer.length)
    exact takeMessage_eq_of_takeLoop (happend.2 payload rest hloop)

theorem stable_pumpRead (stream : List UInt8) :
    Stable pumpRead MessageTake.followedBy stream := by
  rintro buffer more rfl answer h
  obtain ⟨hinvalid, hmessage⟩ := takeMessage_append buffer more
  unfold pumpRead at h ⊢
  cases htake : takeMessage buffer with
  | incomplete => simp [htake] at h
  | invalid =>
    rw [htake] at h
    cases h
    rw [hinvalid htake]
    rfl
  | message payload rest =>
    rw [htake] at h
    cases h
    rw [hmessage payload rest htake]
    rfl

/-- `takeMessage` always returns.  What it returns does not change when more arrives, except for the
bytes it leaves, so that the first message the pump hands out is the same for every cut of a stream.
Packets of which only the last is marked give back their payloads, and leave what follows them. -/
theorem takeMessage_spec :
    (∀ buffer, ∀ fuel > buffer.length,
      takeLoop fuel [] 0 buffer = some (takeMessage buffer)) ∧
    (∀ buffer more,
      (takeMessage buffer = .invalid → takeMessage (buffer ++ more) = .invalid) ∧
      ∀ payload rest, takeMessage buffer = .message payload rest →
        takeMessage (buffer ++ more) = .message payload (rest ++ more)) ∧
    (∀ chunks chunks' : List (List UInt8), chunks.flatten = chunks'.flatten →
      (firstAnswer pumpRead [] chunks).map (fun first => first.1.followedBy first.2.flatten) =
        (firstAnswer pumpRead [] chunks').map fun first => first.1.followedBy first.2.flatten) ∧
    ∀ packets rest, OnlyLastMarked packets →
      (∀ packet ∈ packets, packetHeaderBytes + packet.2.length ≤ maxPacketBytes) →
      (payloadOf packets).length ≤ maxMessageBytes →
        takeMessage (packetStream packets ++ rest) = .message (payloadOf packets) rest := by
  refine ⟨fun buffer fuel hfuel => takeLoop_eq_of_takeMessage rfl hfuel, takeMessage_append,
    fun chunks chunks' hsame => firstAnswer_congr (stable_pumpRead _) rfl hsame rfl, ?_⟩
  rintro packets rest ⟨before, final, rfl, hmarks, hlast⟩ hpackets htotal
  refine takeMessage_eq_of_takeLoop (takeLoop_packets hlast rest before _ [] 0 hmarks
    hpackets ?_ (Nat.lt_succ_self _))
  rwa [Nat.zero_add]

/-- A packet that says a length above `maxPacketBytes` is refused. -/
theorem takeMessage_long {mark : PacketMark}
    (hlong : maxPacketBytes < packetHeaderBytes + payload.length)
    (hlength : packetHeaderBytes + payload.length < 65536) :
    takeMessage (tabularPacket mark payload) = .invalid := by
  have hheader := readHeader_tabularPacket mark hlength []
  have hread : readPacket 0 (tabularPacket mark payload) = .invalid := by
    unfold readPacket
    rw [← List.append_nil (tabularPacket mark payload), hheader]
    dsimp only
    rw [if_neg fun hne => hne rfl, if_pos (.inr hlong)]
  have hloop : takeLoop 1 [] 0 (tabularPacket mark payload) = some .invalid := by
    rw [takeLoop, hread]
  exact takeMessage_eq_of_takeLoop hloop

/-- `framePacket` writes a payload of 32,760 bytes into a packet that `takeMessage` refuses. -/
theorem framePacket_refused :
    (List.replicate 32760 (0 : UInt8)).length ≤ maxMessageBytes ∧
    takeMessage (framePacket (List.replicate 32760 0)) = .invalid := by
  have hlength : (List.replicate 32760 (0 : UInt8)).length = 32760 := List.length_replicate
  unfold framePacket
  constructor
  · rw [hlength]
    decide
  · exact takeMessage_long (by rw [hlength]; decide) (by rw [hlength]; decide)

end Vigil.Wire.SqlServer
