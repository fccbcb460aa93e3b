import IotaSdk.Client.Api

/-!
# The clock check

`get_time_checked` reads the local clock in seconds, truncated to `u32`, and accepts it only in
the window `latest_ms_timestamp - 300 .. latest_ms_timestamp + 300` of the node's latest
milestone. The window's bounds are `u32` arithmetic with Rust's overflow checks.

* `getTimeChecked_edges`: the window's bounds panic for a timestamp below 300 and for one
  within 300 of `2^32`, even when the reading equals it.
-/

namespace IotaSdk.Client
open ClientM

/-- `SystemTime::now().duration_since(UNIX_EPOCH).expect("time went backwards").as_secs() as u32`. -/
def currentTime : ClientM UInt32 := do
  match ← call .systemTime with
  | some seconds => pure seconds.toUInt32
  | none => fail (.panic "time went backwards")

def getTimeChecked : ClientM UInt32 := do
  let currentTime ← currentTime
  let statusResponse ← getInfo
  match statusResponse.latestMilestoneTimestamp with
  | some latestMsTimestamp =>
    let start ← liftExcept (checkedSubU32 latestMsTimestamp fiveMinutesInSeconds)
    let stop ← liftExcept (checkedAddU32 latestMsTimestamp fiveMinutesInSeconds)
    if start ≤ currentTime ∧ currentTime < stop then pure currentTime
    else fail (.timeNotSynced currentTime latestMsTimestamp)
  | none => pure currentTime

def clockNode (seconds : UInt64) (timestamp : Option UInt32) : Node := fun _ request =>
  match request with
  | .systemTime => some seconds
  | .getInfo => .ok ⟨timestamp⟩
  | .getLocalPow => true
  | .sleep _ => ()
  | .getBlock _ | .getIncludedBlock _ | .finishPow _ | .doPow .. | .getBlockMetadata _ | .getTips
  | .postBlockRaw _ | .basicOutputIds _ | .getOutputs _ | .getMinPowScore =>
    .error (.node "unexpected request")

/-- A reading 300 s before the milestone is accepted; a timestamp below 300 or above
`2^32 - 301` makes the window's bounds panic, even for a reading equal to it. -/
theorem getTimeChecked_edges :
    (getTimeChecked.run (clockNode 700 (some 1000))).1 = .ok 700 ∧
    (getTimeChecked.run (clockNode 700 (some 100))).1 =
      .error (.panic "attempt to subtract with overflow") ∧
    (getTimeChecked.run (clockNode 4294967000 (some 4294967000))).1 =
      .error (.panic "attempt to add with overflow") := by
  decide

end IotaSdk.Client
