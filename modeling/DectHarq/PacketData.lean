/-
This file follows the pointer of a packet to the memory it points to.

The operations of a packet copy the pointer of its process and not the data. While an
operation waits, the block may be freed by an ACK, by the last expiration or by a request,
and the next transmit may get it for other data. What the modem finds behind the pointer
are the data of the packet as long as its process still holds them; after that it is the
data of another packet, or no data block any more: it is free, or the kernel heap has given
it to something else.
-/

import DectHarq.HarqHeap
import DectHarq.Payloads

namespace DectHarq

variable {config : Config}

/-- A process holds the data of a packet. -/
def Harq.Holds (harq : Harq config) (process packet : Nat) : Prop :=
  ∃ index : Fin config.harqProcessCount, (index : Nat) = process ∧
    (harq.processes index).packet = packet ∧ (harq.processes index).data ≠ none

/-- The process holds the data of the packet, and they are behind the pointer. -/
def DataSystem.Live (withData : DataSystem config) (process packet : Nat) (buffer : Buffer) :
    Prop :=
  withData.system.harq.Holds process packet ∧ withData.blocks buffer.address = some buffer.bytes

/-- The process does not hold the data of the packet, and the block behind the pointer is no data
block, or holds the data of another packet. -/
def DataSystem.Dangling (withData : DataSystem config) (process packet : Nat)
    (buffer : Buffer) : Prop :=
  ¬ withData.system.harq.Holds process packet ∧
    ∀ bytes, withData.blocks buffer.address = some bytes → ∃ index,
      (withData.system.harq.processes index).data = some ⟨buffer.address, bytes⟩ ∧
        (withData.system.harq.processes index).packet ≠ packet

/-- A data block is the data of a process. -/
theorem DataSystem.Owned.data_iff {withData : DataSystem config} (owned : withData.Owned)
    (address : Nat) (bytes : List Nat) :
    withData.blocks address = some bytes ↔
      ∃ index, (withData.system.harq.processes index).data = some ⟨address, bytes⟩ := by
  rw [owned.owned.exact]
  refine exists_congr fun index => ⟨fun held => ?_, fun data => ?_⟩
  · obtain ⟨buffer, data, equal⟩ := Option.map_eq_some_iff.mp held
    cases equal
    exact data
  · rw [Harq.blocks, HarqProcess.block, data]
    rfl

/-- A process that has data has those of the take of its packet. -/
theorem System.Unmixed.take_of_data {list : List (Take config)} {system : System config}
    (unmixed : system.Unmixed list) {index : Fin config.harqProcessCount} {buffer : Buffer}
    (data : (system.harq.processes index).data = some buffer) :
    ∃ take, list[(system.harq.processes index).packet]? = some take ∧ take.process = index ∧
      take.payload.data = some buffer := by
  rcases unmixed.processes index with blank | ⟨take, found, process, same⟩
  · have none : (system.harq.processes index).data = none := congrArg Payload.data blank
    rw [none] at data
    cases data
  · have equal : (system.harq.processes index).data = take.payload.data :=
      congrArg Payload.data same
    exact ⟨take, found, Fin.ext process, equal ▸ data⟩

/-- The pointer of a packet is live or dangling, as its process holds the data or not. -/
theorem DataSystem.Owned.live_or_dangling {withData : DataSystem config} (owned : withData.Owned)
    {list : List (Take config)} (unmixed : withData.system.Unmixed list) {process packet : Nat}
    {payload : Payload} (belongs : Belongs list process packet payload) {buffer : Buffer}
    (pointer : payload.data = some buffer) :
    withData.Live process packet buffer ∨ withData.Dangling process packet buffer := by
  obtain ⟨take, found, own, same⟩ : ∃ take, list[packet]? = some take ∧
      (take.process : Nat) = process ∧ take.payload.data = some buffer := by
    rcases belongs with blank | ⟨take, found, own, same⟩
    · rw [blank] at pointer
      cases pointer
    · exact ⟨take, found, own, same ▸ pointer⟩
  by_cases holds : withData.system.harq.Holds process packet
  · refine Or.inl ⟨holds, ?_⟩
    obtain ⟨index, _, number, data⟩ := holds
    obtain ⟨block, block_eq⟩ := Option.ne_none_iff_exists'.mp data
    obtain ⟨takeHeld, foundHeld, _, sameHeld⟩ := unmixed.take_of_data block_eq
    rw [number, found] at foundHeld
    obtain rfl := Option.some.inj foundHeld
    rw [same] at sameHeld
    obtain rfl := Option.some.inj sameHeld
    exact (owned.data_iff _ _).mpr ⟨index, block_eq⟩
  · refine Or.inr ⟨holds, fun bytes used => ?_⟩
    obtain ⟨index, data⟩ := (owned.data_iff _ _).mp used
    refine ⟨index, data, fun number => holds ?_⟩
    obtain ⟨takeHeld, foundHeld, process, _⟩ := unmixed.take_of_data data
    rw [number, found] at foundHeld
    obtain rfl := Option.some.inj foundHeld
    rw [process] at own
    exact ⟨index, own, number, by rw [data]; nofun⟩

section Runs

variable {start final : DataSystem config}
  {steps earlier later : List (Transition.Step (DataSystem config) (Event config))}
  {taken : Transition.Step (DataSystem config) (Event config)}

/-- A cut of a run with data blocks is one of the run of the program. -/
theorem dataRun_cut (run : DataSystemRun start steps final)
    (cut : steps = earlier ++ taken :: later) :
    Run start.system (steps.map programOf) final.system ∧
      steps.map programOf =
        earlier.map programOf ++ programOf taken :: later.map programOf :=
  ⟨dataRun_program run, by rw [cut, List.map_append, List.map_cons]⟩

/-- In every run from boot, what is handed to the modem for a packet of a process is one TX_RX with
the process, the length, the receiver and the pointer of the transmit that took the process for
the packet, or with a NULL pointer. The data are behind the pointer as long as the process holds
them; otherwise the block is no data block, or holds the data of another packet. -/
theorem handed_pointer (booted : DataBooted start) (run : DataSystemRun start steps final) :
    ∀ earlier taken later, steps = earlier ++ taken :: later → ∀ process packet,
      handedOver taken.before.system taken.label = some (.packet process packet) →
        ∃ payload params reception ret,
          Belongs (takes (earlier.map programOf)) process packet payload ∧
          newModemCalls (programOf taken) = [(.txRx params reception, ret)] ∧
          payload.CarriedBy process params ∧
          ∀ buffer, params.data = some buffer →
            taken.before.Live process packet buffer ∨
              taken.before.Dangling process packet buffer := by
  intro earlier taken later cut process packet handed
  obtain ⟨program, cutProgram⟩ := dataRun_cut run cut
  have unmixed := unmixed_before booted.1 program cutProgram
  have owned : taken.before.Owned := dataRun_owned booted (run.split_at cut).1
  obtain ⟨payload, params, reception, ret, belongs, calls, carried⟩ :=
    packets_unmixed booted.1 program cutProgram handed
  refine ⟨payload, params, reception, ret, belongs, calls, carried, fun buffer pointer => ?_⟩
  exact owned.live_or_dangling unmixed belongs (carried.data.symm.trans pointer)

end Runs

/-- Three other bytes for device 9. -/
def otherPacket : HarqTransmitParams := ⟨[4, 5, 6], 3, 0, 9⟩

/-- A retransmission for device 7 waits while its packet is acknowledged and the next packet gets
the block. -/
def reusedPointer : List (Event projectConfig) :=
  .transmit smallPacket (some 4096) :: carriedToModem ++
    [.opComplete 0 .success, .workExpired (processZero projectConfig), ackOfSeven,
      .transmit otherPacket (some 4096), .opComplete 0 .success] ++ carriedToModem

/-- The retransmission of the first packet is handed over with a pointer to the second one. -/
theorem handed_pointer_reused :
    ∃ taken ∈ Transition.followAll dataStep deviceWithData reusedPointer,
      handedOver taken.before.system taken.label = some (.packet 0 0) ∧
        taken.before.blocks 4096 = some [4, 5, 6] ∧
        taken.before.Dangling 0 0 ⟨4096, [1, 2, 3]⟩ := by
  have run := Transition.followAll_run dataStep deviceWithData reusedPointer (by decide +kernel)
  obtain ⟨taken, member, handed, other, call, called, sent, transmission, pointer⟩ :
      ∃ taken ∈ Transition.followAll dataStep deviceWithData reusedPointer,
        handedOver taken.before.system taken.label = some (.packet 0 0) ∧
        taken.before.blocks 4096 = some [4, 5, 6] ∧
        ∃ call ∈ newModemCalls (programOf taken), ∃ sent ∈ call.1.transmission,
          sent.data = some ⟨4096, [1, 2, 3]⟩ := by
    decide +kernel
  refine ⟨taken, member, handed, other, ?_⟩
  obtain ⟨earlier, later, cut⟩ := List.append_of_mem member
  obtain ⟨_, params, reception, ret, _, calls, _, behind⟩ :=
    handed_pointer ⟨device_booted, rfl⟩ run earlier taken later cut 0 0 handed
  rw [calls] at called
  obtain rfl := List.mem_singleton.mp called
  obtain rfl : params = sent := Option.some.inj transmission
  rcases behind _ pointer with live | dangling
  · exact absurd (live.2.symm.trans other) (by decide)
  · exact dangling

end DectHarq
