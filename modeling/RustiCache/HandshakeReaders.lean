import RustiCache.HandshakeReplies

/-!
# What a replica reads in the handshake

Each reader waits until its part of the reply is in the buffer, however that
part is cut into chunks and whatever follows it, and then takes exactly that
part off the buffer.
-/

namespace RustiCache

section Text

theorem eq_return_of_mem_utf8EncodeChar {character : Char}
    (member : (13 : UInt8) ∈ String.utf8EncodeChar character) :
    character.toNat = 13 := by
  have back (code : Nat) (small : code < 256)
      (same : (13 : UInt8) = UInt8.ofNat code) : code = 13 := by
    have values := congrArg UInt8.toNat same
    rw [UInt8.toNat_ofNat_of_lt' small] at values
    exact values.symm
  change character.val.toNat = 13
  simp only [String.utf8EncodeChar] at member
  split at member
  next ascii =>
    exact back _ (by omega) (List.mem_singleton.mp member)
  next =>
    exfalso
    split at member
    next =>
      simp only [List.mem_cons, List.not_mem_nil, or_false] at member
      rcases member with same | same
      all_goals
        have value := back _ (by omega) same
        omega
    next =>
      split at member
      all_goals
        simp only [List.mem_cons, List.not_mem_nil, or_false] at member
      · rcases member with same | same | same
        all_goals
          have value := back _ (by omega) same
          omega
      · rcases member with same | same | same | same
        all_goals
          have value := back _ (by omega) same
          omega

/-- A text is checked for white space character by character. -/
theorem solid_of_all (text : String)
    (checked : text.toList.all (fun character => !isWhitespace character)) :
    ∀ character ∈ text.toList, isWhitespace character = false := by
  intro character member
  simpa using List.all_eq_true.mp checked character member

/-- A text without white space has no carriage return among its bytes. -/
theorem return_not_mem_asBytes {text : String}
    (solid : ∀ character ∈ text.toList, isWhitespace character = false) :
    (13 : UInt8) ∉ asBytes text := by
  intro member
  rw [← String.ofList_toList (s := text), asBytes_ofList,
    List.mem_flatMap] at member
  obtain ⟨character, inText, encoded⟩ := member
  have code := eq_return_of_mem_utf8EncodeChar encoded
  have blank := solid character inText
  simp [isWhitespace, code] at blank

theorem trim_resync (replid : String) :
    trim ("+FULLRESYNC " ++ replid ++ " 0\r\n") =
      String.ofList ("+FULLRESYNC".toList ++
        ' ' :: (replid.toList ++ ' ' :: "0".toList)) := by
  have letters : ("+FULLRESYNC " ++ replid ++ " 0\r\n").toList =
      '+' :: ("FULLRESYNC ".toList ++ (replid.toList ++
        [' ', '0', '\r', '\n'])) := by
    simp
  have ends : ('+' :: ("FULLRESYNC ".toList ++ (replid.toList ++
        [' ', '0', '\r', '\n']))).reverse =
      '\n' :: '\r' :: '0' :: ' ' ::
        ('+' :: ("FULLRESYNC ".toList ++ replid.toList)).reverse := by
    simp
  rw [trim, letters, List.dropWhile_cons_of_neg (by decide), ends,
    List.dropWhile_cons_of_pos (by decide),
    List.dropWhile_cons_of_pos (by decide),
    List.dropWhile_cons_of_neg (by decide)]
  simp

/-- A replication id without white space is the second word of its line. -/
theorem splitWhitespace_resync {replid : String} (nonempty : replid ≠ "")
    (solid : ∀ character ∈ replid.toList, isWhitespace character = false) :
    splitWhitespace (trim ("+FULLRESYNC " ++ replid ++ " 0\r\n")) =
      ["+FULLRESYNC", replid, "0"] := by
  have filled : replid.toList.isEmpty = false := by
    simpa using nonempty
  rw [trim_resync, splitWhitespace, String.toList_ofList,
    List.splitOnP_append_cons_of_forall_mem
      (solid_of_all "+FULLRESYNC" (by decide)) ' ' (by decide),
    List.splitOnP_append_cons_of_forall_mem solid ' ' (by decide),
    List.splitOnP_eq_singleton (solid_of_all "0" (by decide))]
  simp [filled]

end Text

/-- The first part of the reply to `PSYNC`. -/
def resyncLine (replid : String) : Bytes :=
  asBytes ("+FULLRESYNC " ++ replid ++ " 0\r\n")

/-- The length of the snapshot in front of it. -/
def snapshotHeader : Bytes :=
  asBytes "$" ++ decimal getEmptyRdbBytes.length ++ Value.crlf

theorem fullResync_eq (replState : ReplicationState) :
    Connection.fullResync replState =
      resyncLine replState.masterReplid ++ (snapshotHeader ++ getEmptyRdbBytes) := by
  rw [Connection.fullResync, List.append_assoc]
  rfl

/-- A buffer and the bytes to come start with a line: either the line is in the
buffer, or no line is. -/
theorem Value.getLine_pending {buffer more text rest : Bytes}
    (noReturn : (13 : UInt8) ∉ text)
    (pending : buffer ++ more = text ++ crlf ++ rest) :
    (getLine buffer = none ∧ buffer.length < (text ++ crlf).length) ∨
      (getLine buffer = some (text, (text ++ crlf).length) ∧
        ∃ tail, buffer = text ++ crlf ++ tail ∧ tail ++ more = rest) := by
  have clean := clean_of_not_mem noReturn
  have length : (text ++ crlf).length = text.length + 2 := by simp [crlf]
  rw [length]
  cases early : getLine buffer with
  | none =>
      left
      refine ⟨rfl, ?_⟩
      by_contra long
      have inPending : text ++ crlf <+: buffer ++ more := ⟨rest, pending.symm⟩
      obtain ⟨tail, front⟩ : text ++ crlf <+: buffer :=
        List.prefix_of_prefix_length_le inPending (List.prefix_append _ _)
          (by omega)
      rw [← front, getLine_crlf clean] at early
      cases early
  | some found =>
      right
      obtain ⟨line, consumed⟩ := found
      obtain ⟨rfl, tail, front⟩ := getLine_spec early
      -- The line found in the buffer is still the first when the rest arrives.
      have kept := getLine_append early more
      rw [pending, getLine_crlf clean] at kept
      simp only [Option.some.injEq, Prod.mk.injEq] at kept
      obtain ⟨rfl, -⟩ := kept
      refine ⟨rfl, tail, front, ?_⟩
      rw [front, List.append_assoc] at pending
      exact List.append_cancel_left pending

namespace ReplicaTask

/-- The task waits for some bytes, takes exactly those off its buffer as soon as
they are there, and goes on from a new stage. -/
def ReadsOff (task : ReplicaTask) (bytes : Bytes) (stage : HandshakeStage)
    (replState : ReplicationState) : Prop :=
  ∀ {more rest : Bytes}, task.buffer ++ more = bytes ++ rest →
    (task.advance = none ∧ task.buffer.length < bytes.length) ∨
      ∃ tail, tail ++ more = rest ∧
        task.advance =
          some ⟨stage, tail, replState, credit bytes task.reads⟩

theorem consume_append {task : ReplicaTask} {bytes tail : Bytes}
    (front : task.buffer = bytes ++ tail) :
    task.consume bytes.length =
      { task with
        buffer := tail
        reads := credit bytes task.reads } := by
  rw [consume, front, List.drop_left, List.take_left]

theorem readsOff_simple {task : ReplicaTask} {cmd : HandshakeCommand}
    {later : List HandshakeCommand}
    (awaiting : task.stage = .awaiting cmd later)
    (simple : cmd ≠ HandshakeCommand.psync) {reply : Bytes}
    (line : IsLine reply) :
    task.ReadsOff reply (proceed later) task.replState := by
  have reader : task.advance = task.readSimpleResponse later := by
    rw [advance, awaiting]
    cases cmd <;> first | rfl | exact absurd rfl simple
  obtain ⟨text, noReturn, rfl⟩ := line
  intro more rest pending
  rw [reader, readSimpleResponse]
  rcases Value.getLine_pending noReturn pending with
    ⟨missing, short⟩ | ⟨found, tail, front, remaining⟩
  · left
    rw [missing]
    exact ⟨rfl, short⟩
  · right
    refine ⟨tail, remaining, ?_⟩
    simp only [found, Option.map_some, consume_append front]

theorem readsOff_fullresync {task : ReplicaTask}
    {later : List HandshakeCommand}
    (awaiting : task.stage = .awaiting .psync later) {replid : String}
    (nonempty : replid ≠ "")
    (solid : ∀ character ∈ replid.toList, isWhitespace character = false) :
    task.ReadsOff (resyncLine replid) (proceed later)
      (task.replState.setReplid replid) := by
  have reader : task.advance = task.readFullresyncResponse later := by
    rw [advance, awaiting]
  have line : resyncLine replid =
      asBytes ("+FULLRESYNC " ++ replid ++ " 0") ++ Value.crlf := by
    have terminator : asBytes " 0\r\n" = asBytes " 0" ++ Value.crlf := by decide
    simp only [resyncLine, asBytes_append, terminator, List.append_assoc]
  have noReturn : (13 : UInt8) ∉
      asBytes ("+FULLRESYNC " ++ replid ++ " 0") := by
    simp only [asBytes_append, List.mem_append, not_or]
    exact ⟨⟨by decide, return_not_mem_asBytes solid⟩, by decide⟩
  have starts : "+FULLRESYNC".toList.isPrefixOf
      ("+FULLRESYNC " ++ replid ++ " 0\r\n").toList = true := by
    simp
  intro more rest pending
  rw [line] at pending
  rw [reader, readFullresyncResponse]
  rcases Value.getLine_pending noReturn pending with
    ⟨missing, short⟩ | ⟨found, tail, front, remaining⟩
  · left
    rw [missing, line]
    exact ⟨rfl, short⟩
  · right
    refine ⟨tail, remaining, ?_⟩
    have taken : task.buffer.take (resyncLine replid).length =
        resyncLine replid := by
      rw [front, ← line, List.take_left]
    rw [← line] at found front
    have text : fromUtf8 (resyncLine replid) =
        .ok ("+FULLRESYNC " ++ replid ++ " 0\r\n") :=
      fromUtf8_asBytes _
    simp only [found, Option.map_some, taken, consume_append front, text,
      if_pos starts, splitWhitespace_resync nonempty solid]
    rfl

/-- The snapshot byte by byte. -/
theorem getEmptyRdbBytes_eq : getEmptyRdbBytes =
    [82, 69, 68, 73, 83, 48, 48, 49, 49, 250, 9, 114, 101, 100, 105, 115, 45,
      118, 101, 114, 5, 55, 46, 50, 46, 48, 250, 10, 114, 101, 100, 105, 115,
      45, 98, 105, 116, 115, 192, 64, 250, 5, 99, 116, 105, 109, 101, 194, 109,
      8, 98, 101, 250, 8, 117, 115, 101, 100, 45, 109, 101, 109, 194, 176, 196,
      16, 0, 250, 8, 97, 111, 102, 45, 98, 97, 115, 101, 192, 0, 255, 246, 34,
      120, 210, 219, 48, 235, 22] := by
  decide +kernel

theorem length_getEmptyRdbBytes : getEmptyRdbBytes.length = 88 := by
  rw [getEmptyRdbBytes_eq]
  rfl

/-- The header of a snapshot of any length. -/
theorem readsOff_length {task : ReplicaTask} (stage : task.stage = .rdbHeader)
    {length : Nat} (fits : (length : Int) ≤ usize.upper) :
    task.ReadsOff (asBytes "$" ++ decimal length ++ Value.crlf)
      (.rdbPayload length) task.replState := by
  have dollar : asBytes "$" = [36] := by decide
  have noReturn : (13 : UInt8) ∉ asBytes "$" ++ decimal length := by
    rw [dollar, List.mem_append, not_or]
    exact ⟨by decide, return_not_mem_decimal length⟩
  have parsed : usize.parse (decimal length) = .ok (length : Int) :=
    usize.parse_decimal _ fits
  have content : (asBytes "$" ++ decimal length).drop 1 =
      asBytes (toString length) :=
    rfl
  intro more rest pending
  rw [advance, stage]
  dsimp only
  rw [readRdbHeader]
  split
  next =>
    rcases Value.getLine_pending noReturn pending with
      ⟨missing, short⟩ | ⟨found, tail, front, remaining⟩
    · left
      rw [missing]
      exact ⟨rfl, short⟩
    · right
      refine ⟨tail, remaining, ?_⟩
      simp only [found, Option.map_some, content, fromUtf8_asBytes]
      rw [← decimal, parsed]
      dsimp only
      rw [Int.toNat_natCast, consume_append front]
  next other =>
    -- The first byte to come is the dollar sign, so the buffer is empty.
    left
    cases filled : task.buffer with
    | nil => exact ⟨rfl, by simp [Value.crlf]⟩
    | cons first buffer =>
        rw [filled] at pending other
        have start := congrArg List.head? pending
        rw [dollar] at start
        exact absurd start other

theorem readsOff_header {task : ReplicaTask} (stage : task.stage = .rdbHeader) :
    task.ReadsOff snapshotHeader (.rdbPayload getEmptyRdbBytes.length)
      task.replState := by
  have fits : (getEmptyRdbBytes.length : Int) ≤ usize.upper := by
    rw [length_getEmptyRdbBytes]
    decide
  intro more rest pending
  exact readsOff_length stage fits pending

theorem readsOff_payload {task : ReplicaTask}
    (stage : task.stage = .rdbPayload getEmptyRdbBytes.length) :
    task.ReadsOff getEmptyRdbBytes .streaming task.replState := by
  intro more rest pending
  rw [advance, stage]
  dsimp only
  rw [readRdbPayload]
  split
  next short =>
    left
    exact ⟨rfl, short⟩
  next enough =>
    right
    obtain ⟨tail, front⟩ : getEmptyRdbBytes <+: task.buffer :=
      List.prefix_of_prefix_length_le ⟨rest, pending.symm⟩
        (List.prefix_append _ _) (by omega)
    refine ⟨tail, ?_, by rw [consume_append front.symm]⟩
    rw [← front, List.append_assoc] at pending
    exact List.append_cancel_left pending

end ReplicaTask

end RustiCache
