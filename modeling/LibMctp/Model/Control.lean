import LibMctp.Model.Transmit

/-!
# Control messages

`control.c`: the handlers of the mandatory MCTP control requests, and the list of message types the
endpoint reports. A request that fails is answered with its completion code alone.
-/

namespace LibMctp

variable {δ : Type}

/-! ### Constants of `libmctp-cmds.h` -/

def mctpCtrlHdrMsgType : UInt8 := 0
def mctpCtrlHdrFlagRequest : UInt8 := (1 : UInt8) <<< 7
def mctpCtrlHdrFlagDgram : UInt8 := (1 : UInt8) <<< 6
def mctpCtrlHdrInstanceIdMask : UInt8 := 0x1F

def mctpCtrlCmdSetEndpointId : UInt8 := 0x01
def mctpCtrlCmdGetEndpointId : UInt8 := 0x02
def mctpCtrlCmdGetVersionSupport : UInt8 := 0x04
def mctpCtrlCmdGetMessageTypeSupport : UInt8 := 0x05
def mctpCtrlCmdFirstTransport : UInt8 := 0xF0
def mctpCtrlCmdLastTransport : UInt8 := 0xFF

def mctpCtrlCcSuccess : UInt8 := 0x00
def mctpCtrlCcError : UInt8 := 0x01
def mctpCtrlCcErrorInvalidData : UInt8 := 0x02
def mctpCtrlCcErrorInvalidLength : UInt8 := 0x03
def mctpCtrlCcErrorUnsupportedCmd : UInt8 := 0x05
def mctpCtrlVersionsNotSupported : UInt8 := 0x80

def mctpCtrlSetEidOpMask : UInt8 := 0x03
def mctpCtrlSetEidOpSet : UInt8 := 0x00
def mctpCtrlSetEidOpForce : UInt8 := 0x01
def mctpCtrlSetEidStatusAccepted : UInt8 := 0x00
def mctpCtrlEndpointTypeSimple : UInt8 := 0x00
def mctpCtrlEndpointIdTypeStatic : UInt8 := 0x01

/-- `struct mctp_ctrl_msg_hdr`. -/
structure MctpCtrlMsgHdr where
  icMsgType : UInt8
  rqDgramInst : UInt8
  commandCode : UInt8

/-- `sizeof(struct mctp_ctrl_msg_hdr)`. -/
def mctpCtrlMsgHdrSize : Nat := 3

/-- The header at the front of a message. -/
def ctrlMsgHdr (data : List UInt8) : MctpCtrlMsgHdr := ⟨data.getD 0 0, data.getD 1 0, data.getD 2 0⟩

def mctpBusSetEid (w : Mctp δ) (b : Nat) (eid : UInt8) : Mctp δ × Int :=
  if eid < 8 ∨ eid = 0xff then (w, -einval)
  else match (w.bindings b).bus with
    | none => (w.withHist (w.hist.fault .nullBus), 0)
    | some i => (w.setBus i { w.busses i with eid := eid }, 0)

/-- `fill_resp`: the three header bytes of the response to a request. -/
def fillResp (req : List UInt8) : List UInt8 :=
  let reqHdr := ctrlMsgHdr req
  [mctpCtrlHdrMsgType, reqHdr.rqDgramInst &&& mctpCtrlHdrInstanceIdMask, reqHdr.commandCode]

/-- How each handler ends: a buffer for the response, `MCTP_CTRL_CC_ERROR` without one, and
otherwise the response sent to the requester with its own tag, whatever that returns. -/
def sendResp (env : Env δ) (w : Mctp δ) (mctp : Option Unit) (srcEid msgTag : UInt8)
    (resp : List UInt8) : Mctp δ × UInt8 :=
  match mctpMsgAlloc env w resp.length mctp with
  | (w, none) => (w, mctpCtrlCcError)
  | (w, some buf) =>
    ((mctpMessageTxAlloced env w srcEid false msgTag { buf with bytes := resp } resp.length).1,
      mctpCtrlCcSuccess)

def mctpCtrlSetEndpointId (env : Env δ) (w : Mctp δ) (i : Fin 2) (srcEid msgTag : UInt8)
    (data : List UInt8) : Mctp δ × UInt8 :=
  if data.length ≠ 5 then (w, mctpCtrlCcErrorInvalidLength)
  else
    let op := data.getD 3 0 &&& mctpCtrlSetEidOpMask
    let eid := data.getD 4 0
    if ¬ (op = mctpCtrlSetEidOpSet ∨ op = mctpCtrlSetEidOpForce) then
      (w, mctpCtrlCcErrorInvalidData)
    else
      let (w, rc) := mctpBusSetEid w ((w.busses i).binding.getD 0) eid
      if rc ≠ 0 then (w, mctpCtrlCcErrorInvalidData)
      else
        sendResp env w (w.busses i).mctp srcEid msgTag
          (fillResp data ++ [mctpCtrlCcSuccess, mctpCtrlSetEidStatusAccepted, eid, 0])

def mctpCtrlGetEndpointId (env : Env δ) (w : Mctp δ) (i : Fin 2) (srcEid msgTag : UInt8)
    (data : List UInt8) : Mctp δ × UInt8 :=
  if data.length ≠ mctpCtrlMsgHdrSize then (w, mctpCtrlCcErrorInvalidLength)
  else
    sendResp env w (w.busses i).mctp srcEid msgTag
      (fillResp data ++ [mctpCtrlCcSuccess, (w.busses i).eid,
        mctpCtrlEndpointTypeSimple ||| mctpCtrlEndpointIdTypeStatic, 0x00])

def mctpProtocolCount : UInt8 := 4

/-- Versions 1.0, 1.1, 1.2 and 1.3.3, big endian. -/
def mctpProtocolVersions : List UInt8 :=
  [0xf1, 0xf0, 0xff, 0x00, 0xf1, 0xf1, 0xff, 0x00, 0xf1, 0xf2, 0xff, 0x00, 0xf1, 0xf3, 0xf3, 0x00]

def mctpCtrlGetVersion (env : Env δ) (w : Mctp δ) (i : Fin 2) (srcEid msgTag : UInt8)
    (data : List UInt8) : Mctp δ × UInt8 :=
  if data.length ≠ 4 then (w, mctpCtrlCcErrorInvalidLength)
  else if ¬ (data.getD 3 0 = 0x00 ∨ data.getD 3 0 = 0xff) then (w, mctpCtrlVersionsNotSupported)
  else
    sendResp env w (w.busses i).mctp srcEid msgTag
      (fillResp data ++ [mctpCtrlCcSuccess, mctpProtocolCount] ++ mctpProtocolVersions)

def mctpCtrlGetTypes (env : Env δ) (w : Mctp δ) (i : Fin 2) (srcEid msgTag : UInt8)
    (data : List UInt8) : Mctp δ × UInt8 :=
  if data.length ≠ mctpCtrlMsgHdrSize then (w, mctpCtrlCcErrorInvalidLength)
  else
    sendResp env w (w.busses i).mctp srcEid msgTag
      (fillResp data ++ [mctpCtrlCcSuccess, UInt8.ofNat w.control.numMsgTypes] ++
        readBytes w.control.msgTypes 0 w.control.numMsgTypes)

def replyError (env : Env δ) (w : Mctp δ) (mctp : Option Unit) (srcEid msgTag : UInt8)
    (data : List UInt8) (ccode : UInt8) : Mctp δ :=
  (sendResp env w mctp srcEid msgTag (fillResp data ++ [ccode])).1

/-- The `switch` of `mctp_control_handler`: the completion code of the command. -/
def ctrlDispatch (env : Env δ) (w : Mctp δ) (i : Fin 2) (srcEid msgTag : UInt8)
    (data : List UInt8) : Mctp δ × UInt8 :=
  let commandCode := (ctrlMsgHdr data).commandCode
  if commandCode = mctpCtrlCmdSetEndpointId then
    mctpCtrlSetEndpointId env w i srcEid msgTag data
  else if commandCode = mctpCtrlCmdGetEndpointId then
    mctpCtrlGetEndpointId env w i srcEid msgTag data
  else if commandCode = mctpCtrlCmdGetVersionSupport then
    mctpCtrlGetVersion env w i srcEid msgTag data
  else if commandCode = mctpCtrlCmdGetMessageTypeSupport then
    mctpCtrlGetTypes env w i srcEid msgTag data
  else (w, mctpCtrlCcErrorUnsupportedCmd)

/-- `mctp_control_handler`. The boolean is whether the message needs no further handling. -/
def mctpControlHandler (env : Env δ) (w : Mctp δ) (i : Fin 2) (srcEid : UInt8) (tagOwner : Bool)
    (msgTag : UInt8) (data : List UInt8) : Mctp δ × Bool :=
  if !tagOwner then (w, false)
  else if data.length < 1 then (w, false)
  else
    let ctrlHdr := ctrlMsgHdr data
    if ctrlHdr.icMsgType ≠ mctpCtrlHdrMsgType then (w, false)
    else if data.length < mctpCtrlMsgHdrSize then (w, true)
    else if ctrlHdr.rqDgramInst &&& (mctpCtrlHdrFlagRequest ||| mctpCtrlHdrFlagDgram)
        ≠ mctpCtrlHdrFlagRequest then (w, true)
    else
      let (w, cc) := ctrlDispatch env w i srcEid msgTag data
      if cc ≠ 0 then (replyError env w (w.busses i).mctp srcEid msgTag data cc, true) else (w, true)

end LibMctp
