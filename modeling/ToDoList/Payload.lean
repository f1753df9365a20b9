import ToDoList.Relay
import ToDoList.Senders

/-!
# The payload of a request

`handle_connection` reads the payload behind the header with the same line
reader, and counts down an `int` that begins as the announced size. At the end
of the stream the reader returns 0 bytes, which neither ends the loop nor
changes the count.
-/

namespace ToDoList
open CLib

/-! ### The loop over the pieces -/

/-- `toread` counts down; `data` is what has been copied so far, `nread` bytes.
A negative count is a huge `size_t` for `memcpy`. -/
def payloadLoop : ℕ → SockBufRead → ℤ → Bytes → Except Fault Bytes
  | 0, _, _, _ => .error .noReturn
  | fuel + 1, r, toread, data =>
    match sockReadline maxMsgSize r with
    | .error f => .error f
    | .ok (line, r) =>
      let n : ℤ := line.length
      let count := if toread < n then toread else n
      if count < 0 then .error .outOfBounds
      else if toread - count = 0 then .ok (data ++ line.take count.toNat)
      else payloadLoop fuel r (toread - count) (data ++ line.take count.toNat)

def readPayload (fuel : ℕ) (r : SockBufRead) (size : ℕ) : Except Fault Bytes :=
  if size ≠ 0 then payloadLoop fuel r (toInt32 size) [] else .ok []

/-- What `handle_connection` reads before it looks at the type of the request. -/
def receiveRequest (fuel : ℕ) (ctx : ClientCtx) (reads : List ReadResult) :
    Except Fault (Option ClientCtx) :=
  match headerLoop parseKv maxReqFields (initBufFd reads) ctx with
  | .error f => .error f
  | .ok (.accepted ctx rest) =>
    match readPayload fuel rest ctx.req.payload.size with
    | .error f => .error f
    | .ok data => .ok (some
        { ctx with req := { ctx.req with payload := ⟨data, ctx.req.payload.size⟩ } })
  | .ok _ => .ok none

/-! ### Streams that are long enough -/

theorem payloadLoop_reads {r : SockBufRead} {stream : Bytes} (h : Delivers r stream) {toread : ℕ}
    (hpos : 0 < toread) (hlen : toread ≤ stream.length) {fuel : ℕ} (hfuel : toread ≤ fuel)
    (data : Bytes) : payloadLoop fuel r toread data = .ok (data ++ stream.take toread) := by
  induction fuel generalizing r stream toread data with
  | zero => omega
  | succ fuel ih =>
    obtain ⟨q, hread, hrest⟩ := sockReadline_delivers h maxMsgSize
    have hne : stream ≠ [] := by
      intro hnil
      rw [hnil, List.length_nil] at hlen
      omega
    have hline := lineOf_eq_take maxMsgSize stream
    have hn := lineOf_pos (by decide : 0 < maxMsgSize) hne
    generalize lineOf maxMsgSize stream = line at hread hrest hline hn
    rw [payloadLoop, hread]
    dsimp only
    by_cases hlast : toread ≤ line.length
    · have hcount : (if (toread : ℤ) < line.length then (toread : ℤ) else line.length) = toread := by
        split <;> omega
      have htake : line.take toread = stream.take toread := by
        rw [hline, List.take_take, Nat.min_eq_left hlast]
      rw [hcount, if_neg (by omega), if_pos (by omega), Int.toNat_natCast, htake]
    · have hcount : (if (toread : ℤ) < line.length then (toread : ℤ) else line.length) =
          line.length := if_neg (by omega)
      have hleft : (toread : ℤ) - line.length = ((toread - line.length : ℕ) : ℤ) := by omega
      rw [hcount, if_neg (by omega), if_neg (by omega), Int.toNat_natCast, List.take_length, hleft,
        ih hrest (by omega) (by rw [List.length_drop]; omega) (by omega), List.append_assoc]
      congr 2
      calc line ++ (stream.drop line.length).take (toread - line.length)
        _ = stream.take line.length ++ (stream.drop line.length).take (toread - line.length) := by
          rw [← hline]
        _ = stream.take (line.length + (toread - line.length)) := List.take_add.symm
        _ = stream.take toread := by rw [Nat.add_sub_of_le (by omega)]

theorem toInt32_natCast {n : ℕ} (h : n < 2 ^ 31) : toInt32 n = n :=
  toInt32_of_isInt32 ⟨by omega, by omega⟩

/-- A payload that arrives whole is read whole, however the stream is cut. -/
theorem readPayload_reads {r : SockBufRead} {stream : Bytes} (h : Delivers r stream) {size : ℕ}
    (hsize : size < 2 ^ 31) (hlen : size ≤ stream.length) {fuel : ℕ} (hfuel : size ≤ fuel) :
    readPayload fuel r size = .ok (stream.take size) := by
  unfold readPayload
  by_cases hzero : size = 0
  · simp [hzero]
  · rw [if_pos hzero, toInt32_natCast hsize,
      payloadLoop_reads h (Nat.pos_of_ne_zero hzero) hlen hfuel, List.nil_append]

/-! ### The message of a checkpoint -/

theorem strToInt_decimal {n : ℕ} (h : n < 2 ^ 31) : strToInt (decimal n) = some (n : ℤ) := by
  rw [← decimalInt_natCast]
  exact strToInt_decimalInt ⟨by omega, by omega⟩

theorem setLow32_zero {n : ℕ} (h : n < 2 ^ 31) : setLow32 0 n = n := by
  unfold setLow32
  omega

def chkptFields (serverId : ℤ) (num : UInt64) (size : ℕ) : List (RequestKey × Bytes) :=
  [(.clientId, decimalInt serverId), (.requestNo, decimal num.toNat), (.messageType, ascii "6"),
    (.dataLength, decimal size)]

theorem chkptHeader_eq (serverId : ℤ) (num : UInt64) (size : ℕ) :
    chkptHeader serverId num size =
      headerText ((chkptFields serverId num size).map RequestKey.pair) := by
  have hid : ascii "Client ID: " = ascii "Client ID" ++ ascii ": " := by decide +kernel
  have hno : ascii "Request No: " = ascii "Request No" ++ ascii ": " := by decide +kernel
  have htype : ascii "Message Type: 6\r\n" =
      ascii "Message Type" ++ ascii ": " ++ ascii "6" ++ ascii "\r\n" := by decide +kernel
  have hsize : ascii "Data Length: " = ascii "Data Length" ++ ascii ": " := by decide +kernel
  have hend : ascii "\r\n\r\n" = ascii "\r\n" ++ ascii "\r\n" := by decide +kernel
  unfold chkptHeader headerText chkptFields
  rw [hid, hno, htype, hsize, hend]
  simp [fieldLine, RequestKey.pair, RequestKey.text]

theorem setFields_chkpt (ctx : ClientCtx) (hctx : ctx.req = {}) {serverId : ℤ}
    (hid : IsInt32 serverId) {num : UInt64} (hnum : num.toNat < 2 ^ 31) {size : ℕ}
    (hsize : size < 2 ^ 31) :
    setFields setRequestField ctx (chkptFields serverId num size) =
      .ok { ctx with clientId := serverId, req := { msgType := .msgChkPt, reqNo := num, payload := ⟨[], size⟩ } } := by
  have htype : strToInt (ascii "6") = some 6 := by decide +kernel
  have hno : UInt64.ofNat (setLow32 0 num.toNat) = num := by
    rw [setLow32_zero hnum, UInt64.ofNat_toNat]
  have hmsg : MsgType.ofInt 6 = .msgChkPt := rfl
  obtain ⟨fd, clientId, req, isBacklog, conn⟩ := ctx
  subst hctx
  simp only [chkptFields, setFields, setRequestField, intField, strToInt_decimalInt hid,
    strToInt_decimal hnum, strToInt_decimal hsize, htype, UInt64.toNat_zero, hno,
    setLow32_zero hsize, hmsg]

theorem receiveRequest_accepted {ctx got : ClientCtx} {reads : List ReadResult} {rest : SockBufRead}
    (h : headerLoop parseKv maxReqFields (initBufFd reads) ctx = .ok (.accepted got rest))
    (fuel : ℕ) :
    receiveRequest fuel ctx reads =
      match readPayload fuel rest got.req.payload.size with
      | .error f => .error f
      | .ok data => .ok (some
          { got with req := { got.req with payload := ⟨data, got.req.payload.size⟩ } }) := by
  unfold receiveRequest
  rw [h]

/-- Whatever the network does to the stream, `handle_connection` makes of the
message of `write_check_point` a checkpoint request with the bytes of the file. -/
theorem chkpt_message_decodes {cut : Bytes → List ReadResult} (hcut : IsCut cut) {serverId : ℤ}
    (hid : IsInt32 serverId) {num : UInt64} (hnum : num.toNat < 2 ^ 31) {file : Bytes}
    (hfile : file.length < 2 ^ 31) (ctx : ClientCtx) (hctx : ctx.req = {}) {fuel : ℕ}
    (hfuel : file.length ≤ fuel) :
    receiveRequest fuel ctx (cut (chkptMessage serverId num file)) =
      .ok (some { ctx with clientId := serverId, req := checkpointRequest num file }) := by
  obtain ⟨hclean, hcontent⟩ := hcut (chkptMessage serverId num file)
  have hdel : Delivers (initBufFd (cut (chkptMessage serverId num file)))
      (headerText ((chkptFields serverId num file.length).map RequestKey.pair) ++ file) := by
    have hinit := delivers_init hclean
    rw [hcontent] at hinit
    rw [← chkptHeader_eq, ← chkptMessage]
    exact hinit
  have hplain : ∀ f ∈ chkptFields serverId num file.length, PlainWord f.2 := by
    have htype : PlainWord (ascii "6") := plainWord_decimal (n := 6) (by decide)
    have hno : PlainWord (decimal num.toNat) := plainWord_decimal (by omega)
    have hsize : PlainWord (decimal file.length) := plainWord_decimal (by omega)
    simp [chkptFields, plainWord_decimalInt hid, htype, hno, hsize]
  have hgood : ∀ f ∈ (chkptFields serverId num file.length).map RequestKey.pair, GoodField f := by
    intro f hf
    obtain ⟨g, hg, rfl⟩ := List.mem_map.mp hf
    exact PlainField.good ⟨plainKey_request g.1, hplain g hg⟩
  have hparse : parseFields parseKv ctx ((chkptFields serverId num file.length).map RequestKey.pair) =
      .ok { ctx with clientId := serverId, req := { msgType := .msgChkPt, reqNo := num, payload := ⟨[], file.length⟩ } } :=
    (parseFields_keyed parseKv RequestKey.text setRequestField parseKv_text ctx _).trans
      (setFields_chkpt ctx hctx hid hnum hfile)
  have hcount : ((chkptFields serverId num file.length).map RequestKey.pair).length ≤ maxReqFields := by
    rw [List.length_map]
    show 4 ≤ maxReqFields
    decide
  obtain ⟨rest, hrest, hloop⟩ := headerLoop_fields parseKv hgood hdel hcount hparse
  have hno : num % 2 ^ 32 = num := by
    apply UInt64.toNat_inj.mp
    rw [UInt64.toNat_mod]
    exact Nat.mod_eq_of_lt (hnum.trans (by decide))
  rw [receiveRequest_accepted hloop, readPayload_reads hrest hfile le_rfl hfuel, List.take_length,
    checkpointRequest, hno]

theorem chkpt_message_decodes_bytewise :
    receiveRequest 6 { fd := 4 } (byByte (chkptMessage 1 3 [0, 13, 10, 58, 10, 255])) =
      .ok (some { fd := 4, clientId := 1, req := checkpointRequest 3 [0, 13, 10, 58, 10, 255] }) :=
  chkpt_message_decodes isCut_byByte (by decide) (by decide) (by decide) { fd := 4 } rfl (by decide)

/-! ### Streams that end early -/

theorem payloadLoop_starved {r : SockBufRead} {stream : Bytes} (h : Delivers r stream) {toread : ℕ}
    (hlen : stream.length < toread) (fuel : ℕ) (data : Bytes) :
    payloadLoop fuel r toread data = .error .noReturn := by
  induction fuel generalizing r stream toread data with
  | zero => rfl
  | succ fuel ih =>
    obtain ⟨q, hread, hrest⟩ := sockReadline_delivers h maxMsgSize
    have hn : (lineOf maxMsgSize stream).length ≤ stream.length := by
      rw [lineOf_eq_take]
      exact List.length_take_le' ..
    generalize lineOf maxMsgSize stream = line at hread hrest hn
    have hcount : (if (toread : ℤ) < line.length then (toread : ℤ) else line.length) =
        line.length := if_neg (by omega)
    have hleft : (toread : ℤ) - line.length = ((toread - line.length : ℕ) : ℤ) := by omega
    rw [payloadLoop, hread]
    dsimp only
    rw [hcount, if_neg (by omega), if_neg (by omega), hleft]
    exact ih hrest (by rw [List.length_drop]; omega) _

theorem payloadLoop_negative {r : SockBufRead} {stream : Bytes} (h : Delivers r stream) {toread : ℤ}
    (hneg : toread < 0) (fuel : ℕ) (data out : Bytes) : payloadLoop fuel r toread data ≠ .ok out := by
  cases fuel with
  | zero => exact nofun
  | succ fuel =>
    obtain ⟨q, hread, -⟩ := sockReadline_delivers h maxMsgSize
    have hcount : (if toread < (lineOf maxMsgSize stream).length then toread
        else (lineOf maxMsgSize stream).length) = toread := if_pos (by omega)
    rw [payloadLoop, hread]
    dsimp only
    rw [hcount, if_pos hneg]
    exact nofun

theorem readPayload_returns_iff {r : SockBufRead} {stream : Bytes} (h : Delivers r stream) {size : ℕ}
    (hsize : size < 2 ^ 32) :
    (∃ fuel data, readPayload fuel r size = .ok data) ↔ size < 2 ^ 31 ∧ size ≤ stream.length := by
  constructor
  · rintro ⟨fuel, data, hok⟩
    unfold readPayload at hok
    by_cases hzero : size = 0
    · omega
    · rw [if_pos hzero] at hok
      by_cases hbig : size < 2 ^ 31
      · rw [toInt32_natCast hbig] at hok
        refine ⟨hbig, Nat.le_of_not_lt fun hshort => ?_⟩
        rw [payloadLoop_starved h hshort] at hok
        cases hok
      · have hneg : toInt32 size < 0 := by
          unfold toInt32
          rw [Int.bmod_def]
          omega
        exact absurd hok (payloadLoop_negative h hneg fuel [] data)
  · rintro ⟨hbig, hlen⟩
    exact ⟨size, _, readPayload_reads h hbig hlen le_rfl⟩

theorem payloadLoop_length {fuel : ℕ} {r : SockBufRead} {toread : ℤ} {data out : Bytes}
    (h : payloadLoop fuel r toread data = .ok out) : (out.length : ℤ) = data.length + toread := by
  induction fuel generalizing r toread data with
  | zero => cases h
  | succ fuel ih =>
    rw [payloadLoop] at h
    cases hread : sockReadline maxMsgSize r with
    | error f =>
      rw [hread] at h
      cases h
    | ok p =>
      obtain ⟨line, q⟩ := p
      rw [hread] at h
      dsimp only at h
      have hle : (if toread < line.length then toread else (line.length : ℤ)) ≤ line.length := by
        split <;> omega
      generalize (if toread < line.length then toread else (line.length : ℤ)) = count at h hle
      by_cases hneg : count < 0
      · rw [if_pos hneg] at h
        cases h
      rw [if_neg hneg] at h
      have hcopied : (line.take count.toNat).length = count.toNat := by
        rw [List.length_take]
        omega
      by_cases hdone : toread - count = 0
      · rw [if_pos hdone] at h
        cases h
        rw [List.length_append, hcopied]
        omega
      · rw [if_neg hdone] at h
        rw [ih h, List.length_append, hcopied]
        omega

theorem readPayload_length {fuel : ℕ} {r : SockBufRead} {size : ℕ} {out : Bytes} (hsize : size < 2 ^ 31)
    (h : readPayload fuel r size = .ok out) : out.length = size := by
  unfold readPayload at h
  by_cases hzero : size = 0
  · rw [if_neg (by simp [hzero])] at h
    cases h
    exact hzero.symm
  · rw [if_pos hzero, toInt32_natCast hsize] at h
    have hlen := payloadLoop_length h
    rw [List.length_nil] at hlen
    omega

theorem setLow32_lt {x : ℕ} (h : x < 2 ^ 32) (v : ℤ) : setLow32 x v < 2 ^ 32 := by
  unfold setLow32
  omega

theorem size_reqNo (ctx : ClientCtx) (n : UInt64) :
    ({ ctx with req := { ctx.req with reqNo := n } } : ClientCtx).req.payload = ctx.req.payload := rfl

theorem parseKv_size {ctx ctx' : ClientCtx} {key value : Bytes} (hI : ctx.req.payload.size < 2 ^ 32)
    (h : parseKv ctx key value = .ok ctx') : ctx'.req.payload.size < 2 ^ 32 := by
  unfold parseKv at h
  cases hkey : headerKey key with
  | none =>
    rw [hkey] at h
    cases h
    exact hI
  | some k =>
    rw [hkey] at h
    dsimp only at h
    cases k with
    | task | newTask | dueDate | newDate | key | replica1Ip | replica2Ip =>
      cases h
      exact hI
    | requestNo =>
      obtain ⟨v, rfl⟩ := intField_eq_ok h
      rw [size_reqNo]
      exact hI
    | dataLength =>
      obtain ⟨v, rfl⟩ := intField_eq_ok h
      exact setLow32_lt hI v
    | _ =>
      obtain ⟨v, rfl⟩ := intField_eq_ok h
      exact hI

/-- Reading comes to an end, and a request that is handed on has all the bytes
it announced. -/
def ReadingEnds (ctx : ClientCtx) (reads : List ReadResult) : Prop :=
  (∃ fuel got, receiveRequest fuel ctx reads = .ok got) ∧
    ∀ fuel got, receiveRequest fuel ctx reads = .ok (some got) →
      got.req.payload.data.length = got.req.payload.size

/-- Behind an accepted header reading ends exactly when the announced `int` is
not negative and the stream has as many bytes; else the loop does not end, or
copies a negative count. -/
theorem reading_ends_iff {ctx got : ClientCtx} {reads : List ReadResult} {rest : SockBufRead}
    {stream : Bytes} (hctx : ctx.req = {})
    (hheader : headerLoop parseKv maxReqFields (initBufFd reads) ctx = .ok (.accepted got rest))
    (hrest : Delivers rest stream) :
    ReadingEnds ctx reads ↔
      got.req.payload.size < 2 ^ 31 ∧ got.req.payload.size ≤ stream.length := by
  have hsize : got.req.payload.size < 2 ^ 32 := by
    have hstart : ctx.req.payload.size < 2 ^ 32 := by
      rw [hctx]
      decide
    obtain ⟨-, -, hgot⟩ : ∃ pairs, headerLoop notePair maxReqFields (initBufFd reads) [] =
        .ok (.accepted pairs rest) ∧ got.req.payload.size < 2 ^ 32 :=
      headerLoop_noted parseKv (fun ctx _ => ctx.req.payload.size < 2 ^ 32)
        (fun _ _ _ _ _ _ hI hparse => parseKv_size hI hparse) hstart hheader
    exact hgot
  rw [← readPayload_returns_iff hrest hsize]
  constructor
  · rintro ⟨⟨fuel, out, hout⟩, -⟩
    rw [receiveRequest_accepted hheader] at hout
    cases hread : readPayload fuel rest got.req.payload.size with
    | error f =>
      rw [hread] at hout
      cases hout
    | ok data => exact ⟨fuel, data, hread⟩
  · rintro ⟨fuel, data, hread⟩
    obtain ⟨hbig, -⟩ := (readPayload_returns_iff hrest hsize).mp ⟨fuel, data, hread⟩
    refine ⟨⟨fuel, _, by rw [receiveRequest_accepted hheader, hread]⟩, fun fuel' out hout => ?_⟩
    rw [receiveRequest_accepted hheader] at hout
    cases hread' : readPayload fuel' rest got.req.payload.size with
    | error f =>
      rw [hread'] at hout
      cases hout
    | ok data' =>
      rw [hread'] at hout
      cases hout
      exact readPayload_length hbig hread'

def cutShort : Bytes := ascii "Data Length: 5\r\n\r\nab"

theorem cutShort_header :
    ∃ got rest, headerLoop parseKv maxReqFields (initBufFd (byByte cutShort)) {} =
      .ok (.accepted got rest) ∧ got.req.payload.size = 5 ∧ Delivers rest (ascii "ab") := by
  obtain ⟨hclean, hcontent⟩ := isCut_byByte cutShort
  have hdel := delivers_init hclean
  rw [hcontent] at hdel
  have hgood : ∀ f ∈ [("Data Length", ascii "5")], GoodField f := by
    intro f hf
    rw [List.mem_singleton.mp hf]
    exact PlainField.good ⟨plainKey_request .dataLength, plainWord_decimal (n := 5) (by decide)⟩
  have hvalue : strToInt (ascii "5") = some 5 := by decide +kernel
  have hparse : parseFields parseKv {} [("Data Length", ascii "5")] =
      .ok { req := { payload := ⟨[], 5⟩ } } := by
    have hkey := parseKv_text {} .dataLength (ascii "5")
    simp only [setRequestField, intField, hvalue] at hkey
    rw [parseFields, show "Data Length" = RequestKey.text .dataLength from rfl, hkey]
    rfl
  have hstream : cutShort = headerText [("Data Length", ascii "5")] ++ ascii "ab" := by decide +kernel
  rw [hstream] at hdel
  obtain ⟨rest, hrest, hloop⟩ := headerLoop_fields parseKv hgood hdel
    (by decide : [("Data Length", ascii "5")].length ≤ maxReqFields) hparse
  rw [← hstream] at hloop
  exact ⟨_, rest, hloop, rfl, hrest⟩

theorem reading_ends_iff_cutShort :
    ∃ (got : ClientCtx) (rest : SockBufRead),
      headerLoop parseKv maxReqFields (initBufFd (byByte cutShort)) {} = .ok (.accepted got rest) ∧
        (ReadingEnds {} (byByte cutShort) ↔
          got.req.payload.size < 2 ^ 31 ∧ got.req.payload.size ≤ (ascii "ab").length) := by
  obtain ⟨got, rest, hheader, -, hrest⟩ := cutShort_header
  exact ⟨got, rest, hheader, reading_ends_iff rfl hheader hrest⟩

/-- The loop takes 0 bytes in every turn, for ever. -/
theorem reading_spins_at_end_of_stream :
    (∀ fuel, receiveRequest fuel {} (byByte cutShort) = .error .noReturn) ∧
      ¬ReadingEnds {} (byByte cutShort) := by
  obtain ⟨got, rest, hheader, hsize, hrest⟩ := cutShort_header
  have hspins : ∀ fuel, receiveRequest fuel {} (byByte cutShort) = .error .noReturn := by
    intro fuel
    have hshort : (ascii "ab").length < 5 := by decide +kernel
    rw [receiveRequest_accepted hheader, hsize, readPayload, if_pos (by decide),
      toInt32_natCast (by decide), payloadLoop_starved hrest hshort]
  refine ⟨hspins, ?_⟩
  rintro ⟨⟨fuel, got, h⟩, -⟩
  rw [hspins fuel] at h
  cases h

end ToDoList
