import LibMctp.Lib.Table
import LibMctp.Model.Transmit

/-!
# Request tags

`mctp_alloc_tag`, `mctp_dealloc_tag` and `mctp_message_tx_request` of `core.c`: the table of tags
given to outbound requests, whose entries are freed by a response or left to expire.
-/

namespace LibMctp

variable {δ : Type}

/-- The entry test of `mctp_alloc_tag`: a slot is spare unless it is taken and has not expired. -/
def MctpReqTag.spare (now : Nat) (r : MctpReqTag) : Bool :=
  r.localEid == 0 || decide (r.expiry < now)

/-- The entry test of `mctp_dealloc_tag`. -/
def MctpReqTag.carries (localEid remote tag : UInt8) (r : MctpReqTag) : Bool :=
  r.localEid == localEid && r.remote == remote && r.tag == tag

def mctpDeallocTag (w : Mctp δ) (i : Fin 2) (localEid remote tag : UInt8) : Mctp δ :=
  let w := w.withHist (w.hist.deref (w.busBinding i).mctp)
  if localEid = 0 then w
  else match Table.first (MctpReqTag.carries localEid remote tag) w.reqTags with
    | none => w
    | some j =>
        { w with
          reqTags := Function.update w.reqTags j
            { localEid := 0, remote := 0, tag := 0, expiry := 0 } }

/-- One round of the scan of `mctp_alloc_tag`: the bit map `used` of tags, an 8-bit number, and the
last spare slot seen. -/
def allocTagScan (reqTags : Fin 16 → MctpReqTag) (now : Nat) (localEid remote : UInt8)
    (acc : Nat × Option (Fin 16)) (i : Fin 16) : Nat × Option (Fin 16) :=
  let r := reqTags i
  if r.spare now then (acc.1, some i)
  else if r.localEid = localEid ∧ r.remote = remote then
    ((acc.1 ||| 1 <<< r.tag.toNat) % 256, acc.2)
  else acc

/-- `mctp_alloc_tag`: the tag it gives out, or `none` where it returns `-EBUSY`. -/
def mctpAllocTag (w : Mctp δ) (localEid remote : UInt8) : Mctp δ × Option UInt8 :=
  let w := w.withHist (w.hist.assert (decide (localEid ≠ 0)) .assertLocal)
  let now := w.platformNow
  let (used, spare) :=
    (List.finRange 16).foldl (allocTagScan w.reqTags now localEid remote) (0, none)
  match spare with
  | none => (w, none)
  | some j =>
    let roundRobin (t : Nat) : Nat := (t + w.tagRoundRobin.toNat) % 8
    match (List.range 8).find? fun t => used &&& 1 <<< roundRobin t == 0 with
    | none => (w, none)
    | some t =>
      let tag := UInt8.ofNat (roundRobin t)
      let entry :=
        { localEid := localEid, remote := remote, tag := tag,
          expiry := (now + mctpTagTimeout) % 2 ^ 64 }
      ({ w with
        reqTags := Function.update w.reqTags j entry
        tagRoundRobin := (tag + 1) % 8 }, some tag)

/-- `mctp_message_tx_request`: the return value, and the tag stored through `ret_alloc_msg_tag`. -/
def mctpMessageTxRequest (env : Env δ) (w : Mctp δ) (eid : UInt8) (msg : MsgBuf) (msgLen : Nat) :
    Mctp δ × Int × Option UInt8 :=
  match findBusForEid w eid with
  | none => (mctpMsgFree w msg (some ()), 0, none)
  | some i =>
    match mctpAllocTag w (w.busses i).eid eid with
    | (w, none) => (mctpMsgFree w msg (some ()), -ebusy, none)
    | (w, some allocTag) =>
      let (w, rc) := mctpMessageTxAlloced env w eid true allocTag msg msgLen
      (w, rc, some allocTag)

end LibMctp
