import Foctet.Net.Authentication
import Foctet.Net.SendLoops

/-! Sending in chunks of the configured size. The builder takes every size, and with a size of
zero `send` never returns and `send_file` sends nothing; a size for which there is no memory ends
the process. -/
namespace Foctet.Net
open Foctet.Core Foctet.Lib Foctet.Mux

/-- What is asked of a call that sends an input: it comes to an end without a panic, its
messages are not empty and not longer than the size, and if it succeeds they are the input. -/
def SendsWhole {M : Type} (payload : M → List UInt8) (size : Nat) (input : List UInt8)
    (call : Nat → Option (Outcome IoError Unit × List M)) : Prop :=
  ∃ fuel result sent, call fuel = some (result, sent) ∧ result ≠ .panic ∧
    (∀ m ∈ sent, 1 ≤ (payload m).length ∧ (payload m).length ≤ size) ∧
    (result = .ok () → (sent.map payload).flatten = input)

theorem sendTo_whole_iff (s : QuicStream) (data : List UInt8) :
    SendsWhole id s.writeBufferSize data (s.sendTo accepting [] data) ↔
      1 ≤ s.writeBufferSize ∨ data = [] := by
  constructor
  · rintro ⟨fuel, result, sent, returned, -⟩
    by_contra neither
    rw [not_or] at neither
    have zero : s.writeBufferSize = 0 := by omega
    rw [QuicStream.sendTo, zero, loop_sendRound_zero data neither.2] at returned
    cases returned
  · rintro (room | rfl)
    · have start : SentSoFar s.writeBufferSize data (0, []) :=
        ⟨Nat.zero_le _, List.forall_mem_nil _, rfl⟩
      obtain ⟨⟨result, sent⟩, ended, rfl, messages, content⟩ := loop_of_decreasing
        (SentSoFar s.writeBufferSize data) _ (fun t => data.length - t.1) (SentSoFar.step room) start
        (Nat.lt_succ_self _)
      refine ⟨_, .ok (), sent, ended, by simp, messages, fun _ => ?_⟩
      rw [List.map_id]
      exact content
    · exact ⟨1, .ok (), [], rfl, by simp, List.forall_mem_nil _, fun _ => rfl⟩

section file
variable {M : Type} {message : List UInt8 → M} {payload : M → List UInt8} {file : StoredFile}

/-- Without room the first read fills nothing, which the loop takes for the end of the file. -/
theorem sendFileLoop_zero_iff (file : StoredFile) :
    SendsWhole payload 0 file.content (sendFileLoop accepting message file [] []) ↔
      file.content = [] := by
  have stops : Ends (sendFileRound accepting message file) ⟨0, file.content, [], []⟩ (.ok (), []) :=
    .of_done sendFileRound_empty_buffer
  constructor
  · rintro ⟨fuel, result, sent, returned, -, -, whole⟩
    have same := Ends.unique ⟨fuel, returned⟩ stops
    cases same
    exact (whole rfl).symm
  · intro empty
    obtain ⟨fuel, ended⟩ := stops
    exact ⟨fuel, .ok (), [], ended, by simp, List.forall_mem_nil _, fun _ => empty.symm⟩

/-- A file that opens is sent whole, unless the buffer cannot be made, or is empty while the
file is not. -/
theorem sendStoredFile_whole_iff (own : ∀ chunk, payload (message chunk) = chunk)
    (grants : Nat → Bool) (size : Nat) (file : StoredFile) :
    SendsWhole payload size file.content (sendStoredFile grants accepting message size [] file) ↔
      (file.opening = .ok () → newBuffer grants size ≠ none ∧ (1 ≤ size ∨ file.content = [])) := by
  cases opening : file.opening with
  | error e =>
      refine iff_of_true ⟨0, .err e, [], ?_, by simp, List.forall_mem_nil _, by simp⟩ (by simp)
      simp only [sendStoredFile, opening]
  | ok u =>
      rw [forall_prop_of_true rfl]
      cases made : newBuffer grants size with
      | none =>
          refine iff_of_false ?_ (fun condition => condition.1 rfl)
          rintro ⟨fuel, result, sent, returned, no_panic, -⟩
          simp only [sendStoredFile, opening, made, Option.some.injEq, Prod.mk.injEq] at returned
          exact no_panic returned.1.symm
      | some buf =>
          have call : sendStoredFile grants accepting message size [] file =
              sendFileLoop accepting message file buf [] := by
            funext fuel
            simp only [sendStoredFile, opening, made]
          obtain rfl := newBuffer_eq_some made
          rw [and_iff_right (by simp), call]
          rcases Nat.eq_zero_or_pos size with rfl | room
          · rw [or_iff_right (Nat.not_succ_le_zero 0)]
            exact sendFileLoop_zero_iff file
          · obtain ⟨result, sent, ended, no_panic, messages, content, -⟩ :=
              sendFileLoop_whole file room own
            exact iff_of_true ⟨_, result, sent, ended, no_panic, messages, content⟩ (.inl room)

end file

/-- Every size is accepted by the builder. `send` sends all of its input exactly if the size is
not zero or there is nothing to send, and otherwise never returns. `send_file` does so if
moreover the buffer can be allocated; with a size of zero it succeeds and has sent nothing. -/
theorem chunked_sending_iff {A : Type} [DecidableEq A] (S : StackAddrs A)
    (generate : Nat → Keypair → Option (List UInt8)) (b : EndpointBuilder A) (size : Nat)
    (grants : Nat → Bool) :
    ∃ b', b.apply S generate (.withWriteBufferSize size) = .ok b' ∧
      (∀ quic : QuicStream, quic.writeBufferSize = b'.config.writeBufferSize →
        (∀ data, SendsWhole id size data (quic.sendTo accepting [] data) ↔ 1 ≤ size ∨ data = []) ∧
        ∀ file : StoredFile,
          SendsWhole id size file.content (quic.sendFileTo grants accepting [] file) ↔
            (file.opening = .ok () → newBuffer grants size ≠ none ∧ (1 ≤ size ∨ file.content = []))) ∧
      ∀ tcp : LogicalTcpStream, tcp.writeBufferSize = b'.config.writeBufferSize →
        ∀ file : StoredFile,
          SendsWhole Frame.payload size file.content (tcp.sendFileTo grants accepting [] file) ↔
            (file.opening = .ok () → newBuffer grants size ≠ none ∧ (1 ≤ size ∨ file.content = [])) := by
  refine ⟨_, rfl, ?_, ?_⟩
  · intro quic configured
    obtain rfl : quic.writeBufferSize = size := configured
    exact ⟨sendTo_whole_iff quic, sendStoredFile_whole_iff (fun _ => rfl) grants quic.writeBufferSize⟩
  · intro tcp configured
    obtain rfl : tcp.writeBufferSize = size := configured
    exact sendStoredFile_whole_iff (fun _ => rfl) grants tcp.writeBufferSize

namespace Sample

/-- One byte, which can be read. -/
def storedByte : StoredFile := ⟨[7], .ok (), fun _ => .ok 0⟩

def zeroQuic : QuicStream := ⟨⟨1⟩, 0, 16384⟩

def zeroTcp : LogicalTcpStream :=
  ⟨LogicalStream.split ⟨⟨0⟩, ⟨1⟩, .established, 0⟩, ⟨1⟩, 0, 16384⟩

end Sample

/-- The builder takes a write buffer of no bytes. To send one byte through it never ends, and
to send a file with one byte succeeds without a message. -/
theorem zero_buffer_loses :
    (∃ b', Sample.builder.apply Sample.stackAddrs Sample.generate (.withWriteBufferSize 0) = .ok b' ∧
      b'.config.writeBufferSize = 0) ∧
    (¬ ∃ fuel r, Sample.zeroQuic.sendTo accepting [] [7] fuel = some r) ∧
    ∀ grants, Sample.zeroQuic.sendFileTo grants accepting [] Sample.storedByte 1 = some (.ok (), []) ∧
      Sample.zeroTcp.sendFileTo grants accepting [] Sample.storedByte 1 = some (.ok (), []) := by
  refine ⟨⟨_, rfl, rfl⟩, ?_, fun _ => ⟨rfl, rfl⟩⟩
  rintro ⟨fuel, r, returned⟩
  have never : Sample.zeroQuic.sendTo accepting [] [7] fuel = none :=
    loop_sendRound_zero [7] (by simp) [] fuel
  rw [never] at returned
  cases returned

end Foctet.Net
