import Foctet.Net.SendLoops

/-! Files sent one after another over one stream. Nothing on the wire marks the end of
a file, so each `receive_file` has to stop by itself at the boundary. -/
namespace Foctet.Net
open Foctet.Core Foctet.Lib Foctet.Mux

/-- A file to be sent. A `read` may deliver less than the buffer holds: the `k`-th one
at most `reads k + 1` bytes. -/
structure SourceFile where
  content : List UInt8
  reads : Nat → Nat

/-- As a file on the disk, which opens and all of whose reads succeed. -/
def SourceFile.stored (file : SourceFile) : StoredFile :=
  ⟨file.content, .ok (), fun k => .ok (file.reads k)⟩

/-- The messages that the loop of `send_file` makes of a file, with a buffer of some size. There is
a round for each byte and one more. -/
def fileMessages {M : Type} (message : List UInt8 → M) (size : Nat) (file : SourceFile) : List M :=
  match sendFileLoop accepting message file.stored (List.replicate size 0) []
    (file.content.length + 1) with
  | some (_, sent) => sent
  | none => []

def LogicalTcpStream.sendFile (s : LogicalTcpStream) (file : SourceFile) : List Frame :=
  fileMessages (fileFrame s.streamId) s.writeBufferSize file

def QuicStream.sendFile (s : QuicStream) (file : SourceFile) : List (List UInt8) :=
  fileMessages id s.writeBufferSize file

section files
variable {σ M : Type}

/-- One call of `receive_file` after another; after a call that fails or waits there is
no other. -/
def receiveFiles (receive : σ → Incoming M → Nat → Received M × σ) :
    σ → Incoming M → List Nat → List (Received M)
  | _, _, [] => []
  | s, incoming, len :: lens =>
      let received := receive s incoming len
      received.1 ::
        match received.1.result with
        | some (.ok _) => receiveFiles receive received.2 received.1.rest lens
        | _ => []

/-- Each call returns the size of its file, has written its bytes, and has left the
messages of the later files. -/
def delivered (send : SourceFile → List M) (ending : Ending) : List SourceFile → List (Received M)
  | [] => []
  | file :: files =>
      ⟨some (.ok file.content.length), file.content, ⟨files.flatMap send, ending⟩⟩ ::
        delivered send ending files

/-- What both loops do on messages that are not empty. `silent` are the endings at which
a call for no bytes returns. -/
structure Boundary (receive : σ → Incoming M → Nat → Received M × σ) (payload : M → List UInt8)
    (silent : Ending → Prop) : Prop where
  whole : ∀ s messages later ending, messages ≠ [] → (∀ m ∈ messages, payload m ≠ []) →
    (receive s ⟨messages ++ later, ending⟩ (messages.map payload).flatten.length).1 =
      ⟨some (.ok (messages.map payload).flatten.length), (messages.map payload).flatten,
        ⟨later, ending⟩⟩
  spills : ∀ s m messages ending, payload m ≠ [] →
    (receive s ⟨m :: messages, ending⟩ 0).1.file ≠ []
  nothing : ∀ s ending, (receive s ⟨[], ending⟩ 0).1 = ⟨some (.ok 0), [], ⟨[], ending⟩⟩ ↔
    silent ending

/-- A sender that cuts each file into messages that are not empty. -/
structure Cuts (send : SourceFile → List M) (payload : M → List UInt8) : Prop where
  content : ∀ file, ((send file).map payload).flatten = file.content
  nonempty : ∀ file, ∀ m ∈ send file, payload m ≠ []

variable {receive : σ → Incoming M → Nat → Received M × σ} {payload : M → List UInt8}
  {silent : Ending → Prop} {send : SourceFile → List M} {ending : Ending}

/-- The loop cuts a file at places where something is on both sides. -/
theorem fileMessages_cuts {message : List UInt8 → M} {size : Nat} (room : 1 ≤ size)
    (own : ∀ chunk, payload (message chunk) = chunk) : Cuts (fileMessages message size) payload := by
  have whole (file : SourceFile) :
      ((fileMessages message size file).map payload).flatten = file.content ∧
        ∀ m ∈ fileMessages message size file, payload m ≠ [] := by
    obtain ⟨result, sent, ended, no_panic, messages, content, fails⟩ :=
      sendFileLoop_whole file.stored room own
    have same : fileMessages message size file = sent := by
      simp only [fileMessages]
      rw [show file.content = file.stored.content from rfl, ended]
    rw [same]
    refine ⟨?_, fun m member => List.length_pos_iff.mp (messages m member).1⟩
    cases result with
    | ok u => exact content rfl
    | err e =>
        obtain ⟨k, failed⟩ := fails e rfl
        cases failed
    | panic => exact absurd rfl no_panic
  exact ⟨fun file => (whole file).1, fun file => (whole file).2⟩

/-- What is done to each message on the way need not change the payloads. -/
theorem Cuts.map (cuts : Cuts send payload) {g : M → M} (same : ∀ m, payload (g m) = payload m) :
    Cuts (fun file => (send file).map g) payload where
  content file := by
    rw [List.map_map, funext same (f := payload ∘ g), cuts.content]
  nonempty file m member := by
    obtain ⟨n, sent, rfl⟩ := List.mem_map.mp member
    rw [same]
    exact cuts.nonempty file n sent

theorem Cuts.eq_nil_iff (cuts : Cuts send payload) {file : SourceFile} :
    send file = [] ↔ file.content = [] := by
  rw [← cuts.content file]
  constructor
  · intro none_sent
    rw [none_sent]
    rfl
  · intro empty
    cases sent : send file with
    | nil => rfl
    | cons m messages =>
        have some_bytes := cuts.nonempty file m (sent ▸ List.mem_cons_self)
        rw [sent, List.map_cons, List.flatten_cons, List.append_eq_nil_iff] at empty
        exact absurd empty.1 some_bytes

/-- All later files are empty, or a message of one of them comes first. -/
theorem Cuts.flatMap_eq (cuts : Cuts send payload) (files : List SourceFile) :
    (∀ file ∈ files, file.content = []) ∧ files.flatMap send = [] ∨
      (¬ ∀ file ∈ files, file.content = []) ∧
        ∃ m messages, files.flatMap send = m :: messages ∧ payload m ≠ [] := by
  by_cases all : ∀ file ∈ files, file.content = []
  · refine .inl ⟨all, List.flatMap_eq_nil_iff.mpr ?_⟩
    intro file member
    exact cuts.eq_nil_iff.mpr (all file member)
  · refine .inr ⟨all, ?_⟩
    cases sent : files.flatMap send with
    | nil =>
        refine absurd (fun file member => ?_) all
        exact cuts.eq_nil_iff.mp (List.flatMap_eq_nil_iff.mp sent file member)
    | cons m messages =>
        have member : m ∈ files.flatMap send := sent ▸ List.mem_cons_self
        obtain ⟨file, -, of_file⟩ := List.mem_flatMap.mp member
        exact ⟨m, messages, rfl, cuts.nonempty file m of_file⟩

theorem receiveFiles_iff (boundary : Boundary receive payload silent) (cuts : Cuts send payload)
    (s : σ) (files : List SourceFile) :
    receiveFiles receive s ⟨files.flatMap send, ending⟩ (files.map (·.content.length)) =
        delivered send ending files ↔
      ∀ pre file post, files = pre ++ file :: post → file.content = [] →
        silent ending ∧ ∀ later ∈ post, later.content = [] := by
  induction files generalizing s with
  | nil => exact iff_of_true rfl (fun pre file post split => absurd split (by simp))
  | cons file files ih =>
      rw [forall_cut_cons, List.flatMap_cons, List.map_cons, receiveFiles, delivered]
      by_cases empty : file.content = []
      · -- nothing was sent for this file; the call finds what was sent for later ones
        rw [cuts.eq_nil_iff.mpr empty, List.nil_append, empty, List.length_nil]
        rcases cuts.flatMap_eq files with ⟨all, none_sent⟩ | ⟨some_file, m, messages, sent, filled⟩
        · rw [none_sent] at ih ⊢
          by_cases ends : silent ending
          · rw [(boundary.nothing s ending).mpr ends, List.cons.injEq, and_iff_right rfl,
              and_iff_right (fun _ => ⟨ends, all⟩)]
            exact ih _
          · refine iff_of_false ?_ (fun condition => ends (condition.1 rfl).1)
            intro same
            exact ends ((boundary.nothing s ending).mp (List.cons.inj same).1)
        · refine iff_of_false ?_ (fun condition => some_file (condition.1 rfl).2)
          intro same
          rw [sent] at same
          have unwritten := congrArg Received.file (List.cons.inj same).1
          exact boundary.spills s m messages ending filled unwritten
      · -- the messages of this file are taken, and the later ones are left
        have sent : send file ≠ [] := fun none_sent => empty (cuts.eq_nil_iff.mp none_sent)
        have first := boundary.whole s (send file) (files.flatMap send) ending sent
          (cuts.nonempty file)
        rw [cuts.content file] at first
        rw [first, List.cons.injEq, and_iff_right rfl, and_iff_right (absurd · empty)]
        exact ih _

end files

section loops
variable {ending : Ending}

/-- Messages that are not empty: none of them is the end before the last. -/
theorem later_bytes (given : List (List UInt8)) (m : List UInt8) {messages : List (List UInt8)}
    (some_later : messages ≠ []) (filled : ∀ n ∈ messages, n ≠ []) :
    (given ++ [m]).flatten.length ≠ (given ++ m :: messages).flatten.length := by
  obtain ⟨n, messages, rfl⟩ := List.exists_cons_of_ne_nil some_later
  have some_bytes := List.length_pos_iff.mpr (filled n List.mem_cons_self)
  simp only [List.flatten_append, List.flatten_cons, List.flatten_nil, List.length_append,
    List.append_nil]
  omega

theorem tcpReceiveLoop_whole (reader : Halves) (given : List (List UInt8)) {frames : List Frame}
    (later : List Frame) (some_frame : frames ≠ []) (filled : ∀ f ∈ frames, f.payload ≠ []) :
    let content := (given ++ frames.map Frame.payload).flatten
    (tcpReceiveLoop .working content.length ending reader given.flatten.length given
        (frames ++ later)).1 = ⟨some (.ok content.length), content, ⟨later, ending⟩⟩ := by
  induction frames generalizing reader given with
  | nil => exact absurd rfl some_frame
  | cons frame frames ih =>
      rw [List.forall_mem_cons] at filled
      have total : given.flatten.length + frame.payload.length =
          (given ++ [frame.payload]).flatten.length := by
        rw [flatten_concat, List.length_append]
      simp only [List.cons_append, tcpReceiveLoop, Disk.working_takes, if_true, total]
      by_cases last : frames = []
      · subst last
        simp [flushFile]
      · have others : frames.map Frame.payload ≠ [] := by simpa using last
        have before := later_bytes given frame.payload others (by simpa using filled.2)
        rw [List.map_cons, if_neg before]
        have rest := ih (reader.setStateFromFlags frame.header.flags) (given ++ [frame.payload]) last
          filled.2
        rw [List.append_assoc, List.singleton_append] at rest
        exact rest

theorem quicReceiveLoop_whole (given : List (List UInt8)) {chunks : List (List UInt8)}
    (later : List (List UInt8)) (some_chunk : chunks ≠ []) (filled : ∀ c ∈ chunks, c ≠ []) :
    let content := (given ++ chunks).flatten
    quicReceiveLoop .working content.length ending given.flatten.length given (chunks ++ later) =
      ⟨some (.ok content.length), content, ⟨later, ending⟩⟩ := by
  induction chunks generalizing given with
  | nil => exact absurd rfl some_chunk
  | cons chunk chunks ih =>
      rw [List.forall_mem_cons] at filled
      have total : given.flatten.length + chunk.length = (given ++ [chunk]).flatten.length := by
        rw [flatten_concat, List.length_append]
      simp only [List.cons_append, quicReceiveLoop, if_neg filled.1, Disk.working_takes, if_true, total]
      by_cases last : chunks = []
      · subst last
        simp [flushFile]
      · rw [if_neg (later_bytes given chunk last filled.2)]
        have rest := ih (given ++ [chunk]) last filled.2
        rw [List.append_assoc, List.singleton_append] at rest
        exact rest

/-- A first message with some bytes in it is in the file. -/
theorem fill_first_ne_nil {m : List UInt8} (some_bytes : m ≠ []) (messages : List (List UInt8)) :
    (fill .working 0 [] (m :: messages)).given.flatten ≠ [] := by
  have later : [m].flatten.length ≠ 0 := by simpa using some_bytes
  have begins := (fill_accounts .working 0 [m] messages).onward
  rw [fill, if_pos (Disk.working_takes _ _), List.nil_append, if_neg later]
  intro unwritten
  exact some_bytes (List.flatten_eq_nil_iff.mp unwritten m (begins.subset List.mem_cons_self))

/-- A logical stream never returns from a call for no bytes at the end of its messages. -/
theorem tcp_boundary : Boundary (fun s incoming len => LogicalTcpStream.receiveFile s .working incoming len)
    Frame.payload (fun _ => False) where
  whole s frames later ending some_frame filled :=
    tcpReceiveLoop_whole s.halves [] later some_frame filled
  spills s frame frames ending some_bytes := by
    have filled : (tcpReceiveLoop .working 0 ending s.halves 0 [] (frame :: frames)).1.file =
        (fill .working 0 [] (frame.payload :: frames.map Frame.payload)).given.flatten :=
      (tcpReceiveLoop_fill .working 0 ending s.halves [] (frame :: frames)).1
    exact filled ▸ fill_first_ne_nil some_bytes _
  nothing s ending := by
    refine iff_false_intro ?_
    cases ending <;> exact nofun

/-- A QUIC stream returns from it when it is closed. -/
theorem quic_boundary :
    Boundary (fun s incoming len => (QuicStream.receiveFile s .working incoming len, s)) id
      (· = .closed) where
  whole s chunks later ending some_chunk filled := by
    rw [List.map_id]
    exact quicReceiveLoop_whole [] later some_chunk filled
  spills s chunk chunks ending some_bytes := by
    have filled : (quicReceiveLoop .working 0 ending 0 [] (chunk :: chunks)).file =
        (fill .working 0 [] (heard (chunk :: chunks))).given.flatten :=
      (quicReceiveLoop_fill .working 0 ending [] (chunk :: chunks)).1
    rw [heard_cons (show chunk ≠ [] from some_bytes)] at filled
    exact filled ▸ fill_first_ne_nil some_bytes _
  nothing s ending := by
    cases ending with
    | closed => exact iff_of_true rfl rfl
    | failed | pending =>
        refine iff_of_false ?_ ?_
        · intro returned
          cases returned
        · intro closed
          cases closed

/-- The frames of a file as they arrive. -/
def LogicalTcpStream.sentFile (s : LogicalTcpStream) (file : SourceFile) : List Frame :=
  (s.sendFile file).map Frame.wire

theorem tcp_cuts {s : LogicalTcpStream} (room : 1 ≤ s.writeBufferSize) :
    Cuts s.sentFile Frame.payload := (fileMessages_cuts room fun _ => rfl).map fun _ => rfl

theorem quic_cuts {s : QuicStream} (room : 1 ≤ s.writeBufferSize) : Cuts s.sendFile id :=
  fileMessages_cuts room fun _ => rfl

end loops

/-- Files sent in turn are received in turn exactly if none of them is empty; over QUIC
an empty file does no harm if only empty ones follow it and the stream is then closed. -/
theorem files_received_iff (sender receiver : LogicalTcpStream) (quicSender quicReceiver : QuicStream)
    (tcp_room : 1 ≤ sender.writeBufferSize) (quic_room : 1 ≤ quicSender.writeBufferSize)
    (files : List SourceFile) (ending : Ending) :
    (receiveFiles (fun s incoming len => LogicalTcpStream.receiveFile s .working incoming len)
        receiver ⟨files.flatMap sender.sentFile, ending⟩ (files.map (·.content.length)) =
      delivered sender.sentFile ending files ↔ ∀ file ∈ files, file.content ≠ []) ∧
    (receiveFiles (fun s incoming len => (QuicStream.receiveFile s .working incoming len, s))
        quicReceiver ⟨files.flatMap quicSender.sendFile, ending⟩ (files.map (·.content.length)) =
      delivered quicSender.sendFile ending files ↔
        ∀ pre file post, files = pre ++ file :: post → file.content = [] →
          ending = .closed ∧ ∀ later ∈ post, later.content = []) := by
  constructor
  · rw [receiveFiles_iff tcp_boundary (tcp_cuts tcp_room)]
    constructor
    · intro never file member empty
      obtain ⟨pre, post, split⟩ := List.append_of_mem member
      exact (never pre file post split empty).1
    · intro filled pre file post split empty
      exact absurd empty (filled file (split ▸ List.mem_append_right _ List.mem_cons_self))
  · exact receiveFiles_iff quic_boundary (quic_cuts quic_room) quicReceiver files

namespace Sample

def tcp : LogicalTcpStream :=
  ⟨LogicalStream.split ⟨⟨0⟩, ⟨1⟩, .established, 0⟩, ⟨1⟩, 2, 16384⟩

def quic : QuicStream := ⟨⟨1⟩, 2, 16384⟩

/-- Three bytes, read one at a time at first. -/
def three : SourceFile := ⟨[1, 2, 3], fun k => k⟩

def one : SourceFile := ⟨[7], fun _ => 0⟩

def nothing : SourceFile := ⟨[], fun _ => 0⟩

end Sample

theorem files_received_iff_two_files :
    receiveFiles (fun s incoming len => LogicalTcpStream.receiveFile s .working incoming len)
        Sample.tcp ⟨[Sample.three, Sample.one].flatMap Sample.tcp.sentFile, .pending⟩ [3, 1] =
      delivered Sample.tcp.sentFile .pending [Sample.three, Sample.one] :=
  ((files_received_iff Sample.tcp Sample.tcp Sample.quic Sample.quic (by decide) (by decide)
    [Sample.three, Sample.one] .pending).1).mpr (by simp [Sample.three, Sample.one])

/-- An empty file in front of another one: its call takes the message of the other and
waits for more. -/
theorem empty_file_takes_next :
    let tcp := receiveFiles
      (fun s incoming len => LogicalTcpStream.receiveFile s .working incoming len)
      Sample.tcp ⟨[Sample.nothing, Sample.one].flatMap Sample.tcp.sentFile, .pending⟩ [0, 1]
    let quic := receiveFiles
      (fun s incoming len => (QuicStream.receiveFile s .working incoming len, s))
      Sample.quic ⟨[Sample.nothing, Sample.one].flatMap Sample.quic.sendFile, .pending⟩ [0, 1]
    tcp = [⟨none, [7], ⟨[], .pending⟩⟩] ∧
      tcp ≠ delivered Sample.tcp.sentFile .pending [Sample.nothing, Sample.one] ∧
      quic = [⟨none, [7], ⟨[], .pending⟩⟩] ∧
      quic ≠ delivered Sample.quic.sendFile .pending [Sample.nothing, Sample.one] := by
  intro tcp quic
  have tcp_eq : tcp = [⟨none, [7], ⟨[], .pending⟩⟩] := rfl
  have quic_eq : quic = [⟨none, [7], ⟨[], .pending⟩⟩] := rfl
  rw [tcp_eq, quic_eq]
  exact ⟨rfl, nofun, rfl, nofun⟩

end Foctet.Net
