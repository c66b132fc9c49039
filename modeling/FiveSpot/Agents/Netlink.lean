import FiveSpot.Model.Slices

/-! # The kernel's process events (`src/netlink_proc.rs`)

A datagram holds a netlink header, the header of the connector and an event. The outer `Option` of the parsers
is a panic: an index out of bounds, or a slice of the wrong length.
-/

namespace FiveSpot.Netlink

set_option autoImplicit false

open Slices

def cnIdxProc : Nat := 1
def cnValProc : Nat := 1
def procEventExecRaw : Nat := 2
def cnMsgHeaderLen : Nat := 20
def procEventHeaderLen : Nat := 16
def procEventExecPayloadLen : Nat := 8
def nlmsghdrLen : Nat := 16

inductive ProcEvent where
  | exec (pid tgid : Nat)
  | other (what : Nat)
  deriving DecidableEq

inductive NetlinkError where
  | truncated (expected actual : Nat)
  | invalidId (idx val : Nat)
  | io (error : String)
  deriving DecidableEq

def readLe (width : Nat) (bytes : List UInt8) (start stop : Nat) : Option Nat :=
  (slice bytes start stop).bind (fromLeBytes width)

def parseCnMsg (bytes : List UInt8) : Option (Except NetlinkError (List UInt8)) :=
  if bytes.length < cnMsgHeaderLen then some (.error (.truncated cnMsgHeaderLen bytes.length))
  else do
    let idx ← readLe 4 bytes 0 4
    let val ← readLe 4 bytes 4 8
    if idx ≠ cnIdxProc ∨ val ≠ cnValProc then some (.error (.invalidId idx val))
    else do
      let len ← readLe 2 bytes 16 18
      let needed := cnMsgHeaderLen + len
      if bytes.length < needed then some (.error (.truncated needed bytes.length))
      else do
        let payload ← slice bytes cnMsgHeaderLen needed
        return .ok payload

def parseProcEvent (bytes : List UInt8) : Option (Except NetlinkError ProcEvent) :=
  if bytes.length < procEventHeaderLen then some (.error (.truncated procEventHeaderLen bytes.length))
  else do
    let what ← readLe 4 bytes 0 4
    if what ≠ procEventExecRaw then some (.ok (.other what))
    else
      let execEnd := procEventHeaderLen + procEventExecPayloadLen
      if bytes.length < execEnd then some (.error (.truncated execEnd bytes.length))
      else do
        let pid ← readLe 4 bytes procEventHeaderLen (procEventHeaderLen + 4)
        let tgid ← readLe 4 bytes (procEventHeaderLen + 4) execEnd
        return .ok (.exec pid tgid)

/-- The two parsers one after the other, as `next_event` uses them. -/
def decode (bytes : List UInt8) : Option (Except NetlinkError ProcEvent) := do
  match ← parseCnMsg bytes with
  | .error e => return .error e
  | .ok payload => parseProcEvent payload

/-- `Subscriber::next_event` after `recv` has put bytes at the beginning of the buffer. Frames that do not
parse are dropped. -/
def nextEvent (buf : List UInt8) (received : Except String Nat) : Option (Except NetlinkError (Option ProcEvent)) :=
  match received with
  | .error e => some (.error (.io e))
  | .ok n =>
    if n < nlmsghdrLen then some (.ok none)
    else do
      let cnBytes ← slice buf nlmsghdrLen n
      let event ← decode cnBytes
      return .ok event.toOption

/-! ## What the parsers read -/

/-- Where the payload ends that the header declares. -/
def declaredEnd (bytes : List UInt8) : Nat := cnMsgHeaderLen + word bytes 16 2

structure CnMsg (bytes : List UInt8) : Prop where
  idx : word bytes 0 4 = cnIdxProc
  val : word bytes 4 4 = cnValProc
  fits : declaredEnd bytes ≤ bytes.length

/-- A frame that announces an exec. -/
structure ExecFrame (bytes : List UInt8) (pid tgid : Nat) : Prop extends CnMsg bytes where
  declared : procEventHeaderLen + procEventExecPayloadLen ≤ word bytes 16 2
  what : word bytes 20 4 = procEventExecRaw
  pid : word bytes 36 4 = pid
  tgid : word bytes 40 4 = tgid

variable {bytes payload : List UInt8}

theorem readLe_eq {width start : Nat} (h : start + width ≤ bytes.length) :
    readLe width bytes start (start + width) = some (word bytes start width) :=
  fromLeBytes_slice h

theorem parseCnMsg_eq (bytes : List UInt8) : parseCnMsg bytes =
    if bytes.length < cnMsgHeaderLen then some (.error (.truncated cnMsgHeaderLen bytes.length))
    else if word bytes 0 4 ≠ cnIdxProc ∨ word bytes 4 4 ≠ cnValProc then
      some (.error (.invalidId (word bytes 0 4) (word bytes 4 4)))
    else if bytes.length < declaredEnd bytes then some (.error (.truncated (declaredEnd bytes) bytes.length))
    else some (.ok ((bytes.drop cnMsgHeaderLen).take (word bytes 16 2))) := by
  unfold parseCnMsg declaredEnd
  split
  · rfl
  · rename_i hheader
    have hlength : 20 ≤ bytes.length := Nat.not_lt.mp hheader
    have hidx : readLe 4 bytes 0 4 = some (word bytes 0 4) := readLe_eq (by omega)
    have hval : readLe 4 bytes 4 8 = some (word bytes 4 4) := readLe_eq (by omega)
    have hlen : readLe 2 bytes 16 18 = some (word bytes 16 2) := readLe_eq (by omega)
    rw [hidx, hval, hlen]
    simp only [Option.bind_eq_bind, Option.bind_some]
    split
    · rfl
    split
    · rfl
    · rename_i hfits
      rw [slice, if_pos ⟨Nat.le_add_right _ _, Nat.not_lt.mp hfits⟩, Nat.add_sub_cancel_left]
      rfl

theorem parseProcEvent_eq (bytes : List UInt8) : parseProcEvent bytes =
    if bytes.length < procEventHeaderLen then some (.error (.truncated procEventHeaderLen bytes.length))
    else if word bytes 0 4 ≠ procEventExecRaw then some (.ok (.other (word bytes 0 4)))
    else if bytes.length < procEventHeaderLen + procEventExecPayloadLen then
      some (.error (.truncated (procEventHeaderLen + procEventExecPayloadLen) bytes.length))
    else some (.ok (.exec (word bytes 16 4) (word bytes 20 4))) := by
  unfold parseProcEvent
  split
  · rfl
  · rename_i hheader
    have hlength : 16 ≤ bytes.length := Nat.not_lt.mp hheader
    have hwhat : readLe 4 bytes 0 4 = some (word bytes 0 4) := readLe_eq (by omega)
    rw [hwhat]
    simp only [Option.bind_eq_bind, Option.bind_some]
    split
    · rfl
    split
    · rfl
    · rename_i hexec
      have hall : 24 ≤ bytes.length := Nat.not_lt.mp hexec
      have hpid : readLe 4 bytes 16 20 = some (word bytes 16 4) := readLe_eq (by omega)
      have htgid : readLe 4 bytes 20 24 = some (word bytes 20 4) := readLe_eq (by omega)
      change (readLe 4 bytes 16 20).bind _ = _
      rw [hpid, Option.bind_some]
      change (readLe 4 bytes 20 24).bind _ = _
      rw [htgid]
      rfl

/-- What the second parser gets is the declared payload, where its fields stand behind the header. -/
theorem decode_of_cnMsg (h : CnMsg bytes) :
    decode bytes = parseProcEvent ((bytes.drop cnMsgHeaderLen).take (word bytes 16 2)) := by
  have hheader : ¬bytes.length < cnMsgHeaderLen :=
    Nat.not_lt.mpr (Nat.le_trans (Nat.le_add_right _ _) h.fits)
  rw [decode, parseCnMsg_eq, if_neg hheader, if_neg (by simp [h.idx, h.val]), if_neg (Nat.not_lt.mpr h.fits)]
  rfl

theorem cnMsg_of_decode {event : ProcEvent} (h : decode bytes = some (.ok event)) : CnMsg bytes := by
  rw [decode, parseCnMsg_eq] at h
  split at h
  · cases h
  split at h
  · cases h
  rename_i hid
  rw [not_or, not_not, not_not] at hid
  split at h
  · cases h
  rename_i hfits
  exact ⟨hid.1, hid.2, Nat.not_lt.mp hfits⟩

theorem decode_isSome (bytes : List UInt8) : (decode bytes).isSome = true := by
  have hevent : ∀ payload, (parseProcEvent payload).isSome = true := by
    intro payload
    rw [parseProcEvent_eq]
    repeat' split
    all_goals rfl
  rw [decode, parseCnMsg_eq]
  repeat' split
  all_goals first | rfl | exact hevent _

theorem length_payload (h : CnMsg bytes) :
    ((bytes.drop cnMsgHeaderLen).take (word bytes 16 2)).length = word bytes 16 2 := by
  have hfits := h.fits
  rw [declaredEnd] at hfits
  rw [List.length_take, List.length_drop]
  omega

theorem decode_eq_exec_iff {pid tgid : Nat} : decode bytes = some (.ok (.exec pid tgid)) ↔ ExecFrame bytes pid tgid := by
  constructor
  · intro h
    have hmsg := cnMsg_of_decode h
    rw [decode_of_cnMsg hmsg, parseProcEvent_eq, length_payload hmsg] at h
    split at h
    · cases h
    split at h
    · cases h
    rename_i hheader hwhat
    split at h
    · cases h
    rename_i hexec
    have hdeclared : 24 ≤ word bytes 16 2 := Nat.not_lt.mp hexec
    rw [not_not, word_drop_take (by omega)] at hwhat
    rw [word_drop_take (by omega), word_drop_take (by omega)] at h
    cases h
    exact ⟨hmsg, hdeclared, hwhat, rfl, rfl⟩
  · rintro ⟨hmsg, hdeclared, hwhat, hpid, htgid⟩
    have hlong : 24 ≤ word bytes 16 2 := hdeclared
    have hheader : ¬word bytes 16 2 < procEventHeaderLen := Nat.not_lt.mpr (Nat.le_trans (by decide) hlong)
    have hwhat' : word ((bytes.drop cnMsgHeaderLen).take (word bytes 16 2)) 0 4 = procEventExecRaw := by
      rw [word_drop_take (by omega)]
      exact hwhat
    have hpid' : word ((bytes.drop cnMsgHeaderLen).take (word bytes 16 2)) 16 4 = pid := by
      rw [word_drop_take (by omega)]
      exact hpid
    have htgid' : word ((bytes.drop cnMsgHeaderLen).take (word bytes 16 2)) 20 4 = tgid := by
      rw [word_drop_take (by omega)]
      exact htgid
    rw [decode_of_cnMsg hmsg, parseProcEvent_eq, length_payload hmsg, if_neg hheader,
      if_neg (not_not.mpr hwhat'), if_neg (Nat.not_lt.mpr hdeclared), hpid', htgid']

/-! ## Frames -/

/-- The connector header of a frame, with a declared payload length. -/
structure CnMsgHeader where
  seq : UInt32
  ack : UInt32
  flags : UInt16

structure ExecEvent where
  cpu : UInt32
  timestampNs : UInt64
  pid : UInt32
  tgid : UInt32

def CnMsgHeader.encode (header : CnMsgHeader) (len : Nat) : List UInt8 :=
  leBytes 4 cnIdxProc ++ (leBytes 4 cnValProc ++ (leBytes 4 header.seq.toNat ++ (leBytes 4 header.ack.toNat ++
    (leBytes 2 len ++ leBytes 2 header.flags.toNat))))

def ExecEvent.encode (event : ExecEvent) : List UInt8 :=
  leBytes 4 procEventExecRaw ++ (leBytes 4 event.cpu.toNat ++ (leBytes 8 event.timestampNs.toNat ++
    (leBytes 4 event.pid.toNat ++ leBytes 4 event.tgid.toNat)))

/-- The kernel's event record may be longer than what an exec fills of it. -/
def execFrame (header : CnMsgHeader) (event : ExecEvent) (padding : List UInt8) : List UInt8 :=
  header.encode (event.encode.length + padding.length) ++ (event.encode ++ padding)

theorem length_encode_header (header : CnMsgHeader) (len : Nat) : (header.encode len).length = cnMsgHeaderLen := by
  simp [CnMsgHeader.encode, cnMsgHeaderLen]

theorem length_encode_event (event : ExecEvent) :
    event.encode.length = procEventHeaderLen + procEventExecPayloadLen := by
  simp [ExecEvent.encode, procEventHeaderLen, procEventExecPayloadLen]

theorem execFrame_isExec (header : CnMsgHeader) (event : ExecEvent) {padding : List UInt8} (trailing : List UInt8)
    (hpadding : event.encode.length + padding.length < 2 ^ 16) :
    ExecFrame (execFrame header event padding ++ trailing) event.pid.toNat event.tgid.toNat := by
  have hevent := length_encode_event event
  have hlen : word (execFrame header event padding ++ trailing) 16 2 = event.encode.length + padding.length := by
    simp only [execFrame, CnMsgHeader.encode, List.append_assoc, word_skip, Nat.reduceLeDiff, Nat.reduceSub]
    exact word_leBytes hpadding _
  have hframe : ∀ offset width, word (execFrame header event padding ++ trailing) (20 + offset) width =
      word (event.encode ++ (padding ++ trailing)) offset width := by
    intro offset width
    have hright := word_append_right (header.encode (event.encode.length + padding.length))
      (event.encode ++ (padding ++ trailing)) offset width
    rw [length_encode_header] at hright
    rw [execFrame, List.append_assoc, List.append_assoc]
    exact hright
  refine ⟨⟨?_, ?_, ?_⟩, ?_, (hframe 0 4).trans ?_, (hframe 16 4).trans ?_, (hframe 20 4).trans ?_⟩
  · rw [execFrame, CnMsgHeader.encode, List.append_assoc, List.append_assoc]
    exact word_leBytes (by decide) _
  · simp only [execFrame, CnMsgHeader.encode, List.append_assoc, word_skip, Nat.reduceLeDiff, Nat.reduceSub]
    exact word_leBytes (by decide) _
  · rw [declaredEnd, hlen, execFrame, List.length_append, List.length_append, length_encode_header, List.length_append]
    omega
  · rw [hlen, hevent]
    exact Nat.le_add_right _ _
  · rw [ExecEvent.encode, List.append_assoc]
    exact word_leBytes (by decide) _
  · simp only [ExecEvent.encode, List.append_assoc, word_skip, Nat.reduceLeDiff, Nat.reduceSub]
    exact word_leBytes event.pid.toNat_lt _
  · simp only [ExecEvent.encode, List.append_assoc, word_skip, Nat.reduceLeDiff, Nat.reduceSub]
    exact word_leBytes event.tgid.toNat_lt _

/-! ## What does not matter -/

theorem parseCnMsg_append {l : List UInt8} (h : declaredEnd l ≤ l.length) (r : List UInt8) :
    parseCnMsg (l ++ r) = parseCnMsg l := by
  rw [declaredEnd, cnMsgHeaderLen] at h
  have hlen : word (l ++ r) 16 2 = word l 16 2 := word_append_left (by omega) r
  have hidx : word (l ++ r) 0 4 = word l 0 4 := word_append_left (by omega) r
  have hval : word (l ++ r) 4 4 = word l 4 4 := word_append_left (by omega) r
  have hlong : ¬l.length < 20 := by omega
  have hlong' : ¬(l ++ r).length < 20 := by
    rw [List.length_append]
    omega
  have hfits : ¬l.length < 20 + word l 16 2 := by omega
  have hfits' : ¬(l ++ r).length < 20 + word l 16 2 := by
    rw [List.length_append]
    omega
  rw [parseCnMsg_eq, parseCnMsg_eq, declaredEnd, declaredEnd, cnMsgHeaderLen, hlen, hidx, hval, if_neg hlong, if_neg hlong',
    if_neg hfits, if_neg hfits', List.drop_append_of_le_length (by omega), List.take_append_of_le_length]
  rw [List.length_drop]
  omega

/-- Behind the declared end anything may stand. -/
theorem decode_tail (h : declaredEnd bytes ≤ bytes.length) (tail : List UInt8) :
    decode (bytes.take (declaredEnd bytes) ++ tail) = decode bytes := by
  have hlength : (bytes.take (declaredEnd bytes)).length = declaredEnd bytes := by
    rw [List.length_take, Nat.min_eq_left h]
  have hlen : word (bytes.take (declaredEnd bytes)) 16 2 = word bytes 16 2 := by
    have hroom : 16 + 2 ≤ (bytes.take (declaredEnd bytes)).length := by
      rw [hlength, declaredEnd, cnMsgHeaderLen]
      omega
    have hfront := word_append_left hroom (bytes.drop (declaredEnd bytes))
    rwa [List.take_append_drop, eq_comm] at hfront
  have hend : declaredEnd (bytes.take (declaredEnd bytes)) ≤ (bytes.take (declaredEnd bytes)).length := by
    rw [hlength]
    exact Nat.le_of_eq (congrArg (cnMsgHeaderLen + ·) hlen)
  have hbytes := parseCnMsg_append hend (bytes.drop (declaredEnd bytes))
  rw [List.take_append_drop] at hbytes
  rw [decode, decode, parseCnMsg_append hend, hbytes]

/-- Nor does what is left in the buffer from before. -/
theorem nextEvent_eq (fresh stale : List UInt8) : nextEvent (fresh ++ stale) (.ok fresh.length) =
    if fresh.length < nlmsghdrLen then some (.ok none)
    else (decode (fresh.drop nlmsghdrLen)).map fun event => .ok event.toOption := by
  rw [nextEvent]
  split
  · rfl
  · rename_i hheader
    have hin : nlmsghdrLen ≤ fresh.length := Nat.not_lt.mp hheader
    have hslice : slice (fresh ++ stale) nlmsghdrLen fresh.length = some (fresh.drop nlmsghdrLen) := by
      have hlength : (fresh.drop nlmsghdrLen).length = fresh.length - nlmsghdrLen := List.length_drop
      rw [slice, if_pos ⟨hin, by rw [List.length_append]; omega⟩, List.drop_append_of_le_length hin,
        List.take_append_of_le_length (Nat.le_of_eq hlength.symm), List.take_of_length_le (Nat.le_of_eq hlength)]
    rw [hslice, Option.bind_eq_bind, Option.bind_some]
    cases hevent : decode (fresh.drop nlmsghdrLen) <;> rfl

theorem nextEvent_isSome (fresh stale : List UInt8) : (nextEvent (fresh ++ stale) (.ok fresh.length)).isSome = true := by
  rw [nextEvent_eq]
  split
  · rfl
  · rw [Option.isSome_map]
    exact decode_isSome _

/-- The parsers index within bounds, find exactly the frames that announce an exec, give back what was put into
such a frame, and look at nothing behind the declared length. -/
theorem exec_frames_decoded (bytes : List UInt8) :
    (decode bytes).isSome = true ∧
      (∀ pid tgid, decode bytes = some (.ok (.exec pid tgid)) ↔ ExecFrame bytes pid tgid) ∧
      (declaredEnd bytes ≤ bytes.length → ∀ tail, decode (bytes.take (declaredEnd bytes) ++ tail) = decode bytes) ∧
      (∀ (header : CnMsgHeader) (event : ExecEvent) (padding trailing : List UInt8),
        event.encode.length + padding.length < 2 ^ 16 →
          decode (execFrame header event padding ++ trailing) = some (.ok (.exec event.pid.toNat event.tgid.toNat))) ∧
      ∀ stale stale' : List UInt8,
        (nextEvent (bytes ++ stale) (.ok bytes.length)).isSome = true ∧
          nextEvent (bytes ++ stale) (.ok bytes.length) = nextEvent (bytes ++ stale') (.ok bytes.length) := by
  refine ⟨decode_isSome bytes, fun pid tgid => decode_eq_exec_iff, decode_tail, ?_, fun stale stale' => ⟨?_, ?_⟩⟩
  · intro header event padding trailing hpadding
    exact decode_eq_exec_iff.mpr (execFrame_isExec header event trailing hpadding)
  · exact nextEvent_isSome bytes stale
  · rw [nextEvent_eq, nextEvent_eq]

end FiveSpot.Netlink
