import RustiCache.ReplicaHandshake
import RustiCache.HandshakeReaders

/-!
# Questions and lines

The commands of the handshake before `PSYNC` are questions: each waits for one
line.  Their bytes tell them apart, and the bytes of the master are cut into the
lines that answer them.
-/

namespace RustiCache

namespace Value

/-- Cut lines off the front of some bytes. -/
def cutLines : Nat → Bytes → Option (List Bytes × Bytes)
  | 0, src => some ([], src)
  | count + 1, src =>
      (getLine src).bind fun (_, consumed) =>
        (cutLines count (src.drop consumed)).map fun (lines, rest) =>
          (src.take consumed :: lines, rest)

theorem cutLines_succ {count consumed : Nat} {src text : Bytes}
    (found : getLine src = some (text, consumed)) :
    cutLines (count + 1) src =
      (cutLines count (src.drop consumed)).map fun (lines, rest) =>
        (src.take consumed :: lines, rest) := by
  rw [cutLines, found]
  rfl

theorem exists_of_cutLines_succ {count : Nat} {src rest : Bytes}
    {lines : List Bytes} (cut : cutLines (count + 1) src = some (lines, rest)) :
    ∃ text consumed others, getLine src = some (text, consumed) ∧
      lines = src.take consumed :: others ∧
      cutLines count (src.drop consumed) = some (others, rest) := by
  rw [cutLines, Option.bind_eq_some_iff] at cut
  obtain ⟨⟨text, consumed⟩, found, after⟩ := cut
  obtain ⟨⟨others, last⟩, cut, same⟩ := Option.map_eq_some_iff.mp after
  cases same
  exact ⟨text, consumed, others, found, rfl, cut⟩

/-- Lines that have been found stay when more bytes come. -/
theorem cutLines_append {count : Nat} {src rest : Bytes} {lines : List Bytes}
    (cut : cutLines count src = some (lines, rest)) (extra : Bytes) :
    cutLines count (src ++ extra) = some (lines, rest ++ extra) := by
  induction count generalizing src lines with
  | zero =>
      cases cut
      rfl
  | succ count ih =>
      obtain ⟨text, consumed, others, found, rfl, tail⟩ :=
        exists_of_cutLines_succ cut
      obtain ⟨size, behind, layout⟩ := getLine_spec found
      have within : consumed ≤ src.length := by
        rw [layout, size]
        simp [crlf]
      rw [cutLines_succ (getLine_append found extra),
        List.drop_append_of_le_length within, ih tail,
        List.take_append_of_le_length within]
      rfl

/-- One more line. -/
theorem cutLines_snoc {count consumed : Nat} {src rest text : Bytes}
    {lines : List Bytes} (cut : cutLines count src = some (lines, rest))
    (found : getLine rest = some (text, consumed)) :
    cutLines (count + 1) src =
      some (lines ++ [rest.take consumed], rest.drop consumed) := by
  induction count generalizing src lines with
  | zero =>
      cases cut
      rw [cutLines_succ found]
      rfl
  | succ count ih =>
      obtain ⟨first, size, others, head, rfl, tail⟩ :=
        exists_of_cutLines_succ cut
      rw [cutLines_succ head, ih tail]
      rfl

theorem length_of_cutLines {count : Nat} {src rest : Bytes} {lines : List Bytes}
    (cut : cutLines count src = some (lines, rest)) : lines.length = count := by
  induction count generalizing src lines with
  | zero =>
      cases cut
      rfl
  | succ count ih =>
      obtain ⟨_, _, others, _, rfl, tail⟩ := exists_of_cutLines_succ cut
      rw [List.length_cons, ih tail]

end Value

namespace HandshakeCommand

/-- Every line but the first answers another question than `PING`. -/
theorem exists_beside {masterauth : Option String} {myPort : UInt16}
    {lines : List Bytes}
    (enough : lines.length = (questions masterauth myPort).length)
    {line : Bytes} (among : line ∈ lines.tail) :
    ∃ cmd, (cmd, line) ∈ (questions masterauth myPort).zip lines ∧
      cmd ≠ ping := by
  cases lines with
  | nil => cases among
  | cons first others =>
      rw [questions] at enough ⊢
      generalize later : (masterauth.map auth).toList ++
        [listeningPort myPort, capa] = commands at enough ⊢
      have same : commands.length = others.length := by
        simpa using enough.symm
      have noPing : ping ∉ commands := by
        rw [← later]
        cases masterauth <;> simp
      have answered : (commands.zip others).map Prod.snd = others :=
        List.map_snd_zip same.ge
      rw [List.tail_cons, ← answered] at among
      obtain ⟨⟨cmd, reply⟩, beside, rfl⟩ := List.mem_map.mp among
      refine ⟨cmd, List.mem_cons_of_mem _ beside, ?_⟩
      rintro rfl
      exact noPing (List.of_mem_zip beside).1

/-- The first bytes tell `PING` and `PSYNC` from the other commands. -/
def mark : HandshakeCommand → Bytes
  | ping => asBytes "*1\r\n$4"
  | auth _ => asBytes "*2\r\n$4"
  | listeningPort _ => asBytes "*3\r\n$8"
  | capa => asBytes "*5\r\n$8"
  | psync => asBytes "*3\r\n$5"

theorem take_bytes (cmd : HandshakeCommand) : cmd.bytes.take 6 = cmd.mark := by
  cases cmd with
  | ping => decide
  | auth pass =>
      simp only [bytes, mark, List.append_assoc]
      rw [List.take_append_of_le_length (by decide)]
      decide
  | listeningPort port =>
      simp only [bytes, mark, List.append_assoc]
      rw [List.take_append_of_le_length (by decide)]
      decide
  | capa => decide
  | psync => decide

theorem mark_of_bytes {cmd other : HandshakeCommand}
    (same : cmd.bytes = other.bytes) : cmd.mark = other.mark := by
  rw [← take_bytes, same, take_bytes]

theorem eq_ping_of_bytes {cmd : HandshakeCommand}
    (same : cmd.bytes = ping.bytes) : cmd = ping := by
  have marks := mark_of_bytes same
  cases cmd with
  | ping => rfl
  | _ =>
      simp only [mark] at marks
      exact absurd marks (by decide)

theorem eq_psync_of_bytes {cmd : HandshakeCommand}
    (same : cmd.bytes = psync.bytes) : cmd = psync := by
  have marks := mark_of_bytes same
  cases cmd with
  | psync => rfl
  | _ =>
      simp only [mark] at marks
      exact absurd marks (by decide)

end HandshakeCommand

end RustiCache
