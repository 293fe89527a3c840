import Solfees.Rpc.HubRuns

/-!
# A snapshot and a subscription

The two ways to the slots of the server do not fit by themselves: a snapshot is taken
while updates go out, and a connection reads them later.  A client that subscribes
first and then asks for the snapshot ends with the slots of the server, whatever
happens in between.
-/

namespace Solfees.Sockets

open Std (ExtTreeMap)
open Solfees.BatchResponses
open Solfees.Broadcast
open Solfees.Draining
open Solfees.Fees
open Solfees.Json
open Solfees.Message
open Solfees.OnRequest
open Solfees.RpcServer
open Solfees.Run
open Solfees.SnapshotReplay
open Solfees.SubscriptionFrames
open Solfees.UpdateLoop
open Solfees.WebSocket
open Solfees.Window

variable {Params : Type} {setup : Setup Params} {hub next : Hub Params}
  {events : List (HubEvent Params)}

theorem streams_of_runUpdateLoop {messages : List GeyserMessage} {state : LoopState}
    (hrun : LoopState.runUpdateLoop messages = .ok state) :
    state.slotsInfo = recentSlots messages ∧
      state.streams = messages.map toStreamsUpdate := by
  obtain ⟨state', hrun', hslots, hstreams⟩ := runUpdateLoop_recentSlots messages
  obtain rfl := Except.ok.inj (hrun.symm.trans hrun')
  exact ⟨hslots, hstreams⟩

/-- How a client reads texts: the output of a notification, and the number that the text
of a mean shows. -/
structure Reader where
  fromStr : String → Option SlotsSubscribeOutput
  mean : FeeAverage → FeeAverage

/-- An output as an update of the slots of a client. -/
def outputUpdate : SlotsSubscribeOutput → Update Slot SlotOutput CommitmentLevel
  | .slot output => .put output.slot output
  | .status slot commitment => .mark slot commitment

theorem foldl_outputUpdate (outputs : List SlotsSubscribeOutput) (slots : ClientSlots) :
    outputs.foldl applyOutput slots =
      (outputs.map outputUpdate).foldl (applyWindow maxNumRecentSlotInfo setOutputCommitment)
        slots := by
  rw [List.foldl_map]
  congr 1
  funext slots output
  cases output <;> rfl

namespace Reader

variable (reader : Reader)

/-- An output of a slot as it is read. -/
def slotOutput (output : SlotOutput) : SlotOutput :=
  { output with feeAverage := reader.mean output.feeAverage }

def output : SlotsSubscribeOutput → SlotsSubscribeOutput
  | .status slot commitment => .status slot commitment
  | .slot output => .slot (reader.slotOutput output)

/-- An update of the slots as it is read. -/
def update : Update Slot SlotOutput CommitmentLevel → Update Slot SlotOutput CommitmentLevel
  | .put slot output => .put slot (reader.slotOutput output)
  | .mark slot commitment => .mark slot commitment

/-- The output that is read from a frame. -/
def frame : WebSocketMessage → Option SlotsSubscribeOutput
  | .text message => reader.fromStr message
  | _ => none

/-- Reading the outputs first and applying them afterwards, or the other way round. -/
theorem foldl_applyOutput (outputs : List SlotsSubscribeOutput) (slots : ClientSlots) :
    (outputs.map reader.output).foldl applyOutput
        (slots.map fun _ output => reader.slotOutput output) =
      (outputs.foldl applyOutput slots).map fun _ output => reader.slotOutput output := by
  have hmark (commitment : CommitmentLevel) (output : SlotOutput) :
      reader.slotOutput (setOutputCommitment commitment output) =
        setOutputCommitment commitment (reader.slotOutput output) := rfl
  rw [foldl_outputUpdate, foldl_outputUpdate,
    foldl_applyWindow_map maxNumRecentSlotInfo reader.slotOutput hmark reader.update
      (fun _ _ => rfl) (fun _ _ => rfl), List.map_map, List.map_map]
  congr 2
  funext output
  cases output <;> rfl

end Reader

end Solfees.Sockets
