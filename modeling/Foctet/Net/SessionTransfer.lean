import Foctet.Mux.Channels
import Foctet.Net.FileTransfer

/-! Files over two sessions. Between `send_file` at one end and `receive_file` at the other lie
both actors, their channels, the codec and the byte pipe; at every moment of every run the
files at the far end are the ones that were sent, as far as they have come. -/
namespace Foctet.Net
open Foctet.Core Foctet.Lib Foctet.Mux

/-- Calls of `receive_file` in turn: some files are whole, and the call for the next one waits
with a part of it. -/
inductive Progress : List SourceFile → List (Received Frame) → Prop where
  | done : Progress [] []
  | waits {file : SourceFile} {files : List SourceFile} {r : Received Frame} (waiting : r.result = none)
      (part : r.file <+: file.content) (short : r.file ≠ file.content) : Progress (file :: files) [r]
  | next {file : SourceFile} {files : List SourceFile} {r : Received Frame} {rs : List (Received Frame)}
      (returned : r.result = some (.ok file.content.length)) (whole : r.file = file.content)
      (later : Progress files rs) : Progress (file :: files) (r :: rs)

/-- Every call for a file has returned. -/
def Finished (rs : List (Received Frame)) : Prop := ∀ r ∈ rs, r.result ≠ none

/-- The calls of `receive_file` on the messages that have arrived, for these files. -/
def receiving (receiver : LogicalTcpStream) (files : List SourceFile) (frames : List Frame) :
    List (Received Frame) :=
  receiveFiles (fun s incoming len => LogicalTcpStream.receiveFile s .working incoming len) receiver
    ⟨frames, .pending⟩ (files.map (·.content.length))

section
variable {send : SourceFile → List Frame}

/-- Sealing a frame leaves its payload alone. -/
theorem sealed_cuts {s : LogicalTcpStream} (room : 1 ≤ s.writeBufferSize) :
    Cuts (fun file => (s.sendFile file).map Frame.sealed) Frame.payload :=
  (fileMessages_cuts room fun _ => rfl).map fun _ => rfl

/-- As long as bytes are missing the call waits, with all that came. -/
theorem receiveFile_waits (receiver : LogicalTcpStream) {frames : List Frame} {len : Nat}
    (missing : (frames.map Frame.payload).flatten.length < len) :
    (receiver.receiveFile .working ⟨frames, .pending⟩ len).1.result = none ∧
      (receiver.receiveFile .working ⟨frames, .pending⟩ len).1.file =
        (frames.map Frame.payload).flatten := by
  obtain ⟨file, result⟩ := tcpReceiveLoop_fill .working len .pending receiver.halves [] frames
  have accounts := fill_accounts Disk.working len [] (frames.map Frame.payload)
  have short : (fill .working len [] (frames.map Frame.payload)).outcome = .short := by
    cases outcome : (fill .working len [] (frames.map Frame.payload)).outcome with
    | full =>
        -- the bytes that came would be enough
        have enough := accounts.initial.flatten.length_le
        rw [(accounts.full outcome).2] at enough
        omega
    | broken => exact absurd (fun _ _ _ => rfl) (accounts.broken outcome)
    | short => rfl
  rw [tcpResult, short] at result
  rw [accounts.all short] at file
  exact ⟨result, file⟩

theorem Cuts.length_lt (cuts : Cuts send Frame.payload) {file : SourceFile} {frames rest : List Frame}
    (split : send file = frames ++ rest) (more : rest ≠ []) :
    (frames.map Frame.payload).flatten.length < file.content.length := by
  obtain ⟨f, rest, rfl⟩ := List.exists_cons_of_ne_nil more
  have some_bytes : 0 < f.payload.length := by
    apply List.length_pos_iff.mpr
    apply cuts.nonempty file f
    rw [split]
    exact List.mem_append_right _ List.mem_cons_self
  rw [← cuts.content file, split]
  simp only [List.map_append, List.map_cons, List.flatten_append, List.flatten_cons, List.length_append]
  omega

/-- Whatever part of the frames has arrived: the induction is on the files, and the frames end
inside the first of them or reach the others. -/
theorem receiving_progress (cuts : Cuts send Frame.payload) (receiver : LogicalTcpStream)
    {files : List SourceFile} {frames : List Frame} (filled : ∀ file ∈ files, file.content ≠ [])
    (begins : frames <+: files.flatMap send) :
    Progress files (receiving receiver files frames) ∧
      (Finished (receiving receiver files frames) ↔ frames = files.flatMap send) := by
  induction files generalizing receiver frames with
  | nil =>
      have none_sent : frames = [] := List.prefix_nil.mp begins
      exact ⟨.done, iff_of_true (fun r there => by cases there) none_sent⟩
  | cons file files ih =>
      rw [List.forall_mem_cons] at filled
      rw [List.flatMap_cons] at begins ⊢
      rw [receiving, List.map_cons, receiveFiles]
      by_cases whole : send file <+: frames
      · obtain ⟨later, rfl⟩ := whole
        have rest : later <+: files.flatMap send := (List.prefix_append_right_inj _).mp begins
        have sent : send file ≠ [] := fun none_sent => filled.1 (cuts.eq_nil_iff.mp none_sent)
        have first := tcp_boundary.whole receiver (send file) later .pending sent (cuts.nonempty file)
        rw [cuts.content file] at first
        obtain ⟨progress, finished⟩ := ih
          (receiver.receiveFile .working ⟨send file ++ later, .pending⟩ file.content.length).2 filled.2 rest
        simp only [first]
        refine ⟨.next rfl rfl progress, ?_⟩
        rw [Finished, List.forall_mem_cons, List.append_cancel_left_eq]
        exact (and_iff_right (fun waiting => by cases waiting)).trans finished
      · obtain ⟨rest, split⟩ : frames <+: send file :=
          (List.prefix_or_prefix_of_prefix begins (List.prefix_append _ _)).resolve_right whole
        have more : rest ≠ [] := by
          rintro rfl
          rw [List.append_nil] at split
          exact whole (split ▸ List.prefix_refl _)
        have missing := cuts.length_lt split.symm more
        obtain ⟨waiting, written⟩ := receiveFile_waits receiver missing
        simp only [waiting]
        constructor
        · refine .waits waiting ?_ ?_
          · rw [written, ← cuts.content file, ← split, List.map_append, List.flatten_append]
            exact List.prefix_append _ _
          · intro same
            rw [← written, same] at missing
            exact Nat.lt_irrefl _ missing
        · refine iff_of_false (fun finished => finished _ List.mem_cons_self waiting) ?_
          rintro rfl
          exact whole (List.prefix_append _ _)

end

/-- Nothing is under way to a reader on this stream: not in the event channel, the actor or the
pipe of the one side, and not in the actor or the channel `c` of the other. -/
structure Quiet (n : Mux.Net BytePipe) (s : SessionSide) (i : StreamId) (c : ChannelId) : Prop where
  events : framesOn i (n.peer s).events = []
  writing : writingOn i (n.peer s).actor = []
  pipe : dataOn i (byteLink.inFlight (n.link s)) = []
  held : SessionActor.held c (n.peer s.other).actor = []
  queue : (n.peer s.other).queue c = []

namespace Sample

/-- The end that sends, with room for three bytes. -/
def sender : LogicalTcpStream := { tcp with writeBufferSize := 3 }

/-- Four bytes, read as they fit. -/
def four : SourceFile := ⟨[1, 2, 3, 4], fun _ => 9⟩

theorem sendFile_four : sender.sendFile four = [bytesFrame ⟨1⟩ [1, 2, 3], fileFrame ⟨1⟩ [4]] := rfl

end Sample

end Foctet.Net
