/-
What a transfer between a client and its server does to both mounts.

A transfer copies one file from one side to the other, or it leaves both mounts as they are.  It
copies only if the copy on the other side gives way: there is none, or it is another one and not
newer.  This is checked where the file goes to when it is asked to be put there, with what is there
at that moment, so it holds however long the way is and whoever comes before.

What is copied is as much of the content as is told of the file.  Of a file that keeps its content
this is all of it.
-/
import MountSync.Proofs.Checksum
import MountSync.Proofs.Cluster.Shared
import MountSync.Proofs.Conflict
import MountSync.Proofs.Mount.Listing

namespace MountSync

/-- The content of a file as far as its size goes. -/
def File.told (f : File) : Bytes := f.content.take (UInt64.ofNat f.size).toNat

theorem File.told_of_isPlain {f : File} (plain : f.IsPlain) : f.told = f.content := by
  rw [told, plain.toNat_size, List.take_length]

namespace Mount

/-- Whether the copy of a file gives way to another one: it is absent, or it is different and not
newer. -/
def Yields (m : Mount) (name : String) (g : File) : Prop :=
  m.statFile name = .ok none ∨
    ∃ record, m.statFile name = .ok (some record) ∧ record.checksum ≠ fileChecksum g.content ∧
      record.mtime ≤ g.modified.unixTime

theorem yields_of_proceed {m : Mount} {name : String} {found : Option FileRecord} {g : File}
    {direction : Direction} (stat : m.statFile name = .ok found)
    (proceeds : MountSync.resolve direction (found.map FileRecord.version)
      (recordOf name g g.content).version = .proceed) : m.Yields name g := by
  cases found with
  | none => exact Or.inl stat
  | some record =>
      obtain ⟨differs, notNewer⟩ := resolve_eq_proceed_iff.1 proceeds
      exact Or.inr ⟨record, stat, differs, notNewer⟩

/-- One mount is given the copy of a file that another one has. -/
structure Copies (source : Mount) (name : String) (now : UnixTime) (m m' : Mount) : Prop where
  accepted : accepts name = true
  copied : ∃ p g, source.locate name = .ok (p, .file g) ∧ g.read = .ok g.content ∧
    m.Yields name g ∧ m.Placed now name g.told m'

/-- A name that can be looked up is short. -/
theorem utf8ByteSize_le_of_statFile {m : Mount} {name : String} {found : Option FileRecord}
    (h : m.statFile name = .ok found) : name.utf8ByteSize ≤ pathLimit := by
  by_cases short : name.utf8ByteSize ≤ pathLimit
  · exact short
  rw [statFile, checkName, if_pos (accepts_of_statFile h)] at h
  -- A longer one is refused before anything is looked up.
  have refused : m.find name = .error .zeroInName ∨ m.find name = .error .nameTooLong := by
    rw [find]
    by_cases nul : name.toList.contains '\x00' = true
    · exact Or.inl (if_pos nul)
    · refine Or.inr ?_
      rw [if_neg nul, if_pos (by omega)]
  rcases refused with found | found
  · rw [locate, found] at h
    cases h
  · rw [locate, found] at h
    cases h

theorem textFits_of_statFile {m : Mount} {name : String} {found : Option FileRecord}
    (h : m.statFile name = .ok found) : Frame.TextFits name :=
  Nat.lt_of_le_of_lt (utf8ByteSize_le_of_statFile h) (by decide)

end Mount

/-! ### Calls on any peer -/

namespace Site

variable {σ : Type} (p : Peer σ) (x : Site σ) (timeout : Nat) (request : Request)
  (more : List ClientFrame)

/-- The exchange that a call makes. -/
def exchanged : σ × Except LinkFault (List Message) :=
  p.exchange x.world timeout (.call (.ofNat timeout) request :: more)

theorem call_eq :
    x.call p timeout request more
      = ({ x with world := (x.exchanged p timeout request more).1 },
        (x.exchanged p timeout request more).2.mapError .link) := by
  rw [call, exchanged]
  rcases p.exchange x.world timeout (.call (.ofNat timeout) request :: more) with ⟨w, fault | ms⟩
  · rfl
  · rfl

/-- A call changes nothing but what is on the other side, and what it takes from the reply is in the
messages that came. -/
theorem askFor_eq {α : Type} (what : String) (take : Reply → Option α) :
    (x.askFor p timeout request more what take).1.client = x.client ∧
      (x.askFor p timeout request more what take).1.world = (x.exchanged p timeout request more).1 ∧
      ∀ a, (x.askFor p timeout request more what take).2 = .ok a →
        ∃ messages reply, (x.exchanged p timeout request more).2 = .ok messages ∧
          Message.replyIn messages = .ok reply ∧ take reply = some a := by
  rw [askFor, ask, call_eq]
  cases came : (x.exchanged p timeout request more).2 with
  | error fault => exact ⟨rfl, rfl, nofun⟩
  | ok messages =>
      dsimp only [Except.mapError]
      cases replied : Message.replyIn messages with
      | error failure => exact ⟨rfl, rfl, nofun⟩
      | ok reply =>
          dsimp only
          cases taken : take reply with
          | none => exact ⟨rfl, rfl, nofun⟩
          | some a =>
              refine ⟨rfl, rfl, ?_⟩
              intro b same
              cases same
              exact ⟨messages, reply, rfl, replied, taken⟩

end Site

/-! ### Calls on a server that is shared

What is stored is looked at when the call is served, after whoever has come before it.
-/

/-- What a store of a client does to the world as it finds it.  What is put in place is as long as
was announced. -/
inductive Shared.Stores (w w' : Shared) (timeout : UInt64) (h : StoreHeader)
    (pieces : List Bytes) : Except Failure Unit → Prop
  | placed {found : Option FileRecord} {now : UnixTime} {result : Except Failure Unit} :
      w.Served (.call timeout (.store h) :: framesOf pieces) w' → Mount.accepts h.name = true →
      w.met.mount.statFile h.name = .ok found →
      resolve .store (found.map FileRecord.version) h.version = .proceed →
      pieces.flatten.length = h.size.toNat →
      w.met.mount.Placed now h.name pieces.flatten w'.mount → Stores w w' timeout h pieces result
  | refused {failure : Failure} : w.Goes (.call timeout (.store h) :: framesOf pieces) w' →
      w.met.mount.SameAs w'.mount → Stores w w' timeout h pieces (.error failure)

namespace Site

variable (x : Site Shared)

theorem goes_exchanged (timeout : Nat) (request : Request) (more : List ClientFrame) :
    x.world.Goes (.call (.ofNat timeout) request :: more)
      (x.exchanged Peer.shared timeout request more).1 :=
  x.world.goes_exchange timeout _

/-- Asking for a lock changes nothing in the server's mount. -/
theorem mount_requestLock (timeout : Nat) {name : String} {client : ClientId}
    (fits : (Request.requestLock name client).Fits) :
    (x.exchanged Peer.shared timeout (.requestLock name client) []).1.mount
      = x.world.met.mount := by
  rcases x.world.exchange_call timeout (.call (.ofNat timeout) (.requestLock name client)) [] with
    unheard | ⟨-, s, s', times, p, answers, endpoint, carried, mount, -⟩
  · exact unheard.mount
  · obtain ⟨s₁, answer, locked, same⟩ := s.serve_requestLock times (.ofNat timeout) _ fits
    cases locked.symm.trans carried
    exact mount.trans (same.trans (congrArg Endpoint.mount endpoint))

/-- Whatever becomes of a store on its way, the server either has all of the content, for which the
copy that was there gave way, or the mount that it had. -/
theorem stores_askFor (timeout : Nat) {h : StoreHeader} (fits : h.Fits) {pieces : List Bytes}
    (pieceFits : ∀ piece ∈ pieces, Frame.Fits piece.length) :
    x.world.Stores (x.exchanged Peer.shared timeout (.store h) (framesOf pieces)).1
      (.ofNat timeout) h pieces
      (x.askFor Peer.shared timeout (.store h) (framesOf pieces) "store reply" stored?).2 := by
  obtain ⟨-, -, told⟩ := x.askFor_eq Peer.shared timeout (.store h) (framesOf pieces)
    "store reply" stored?
  generalize (x.askFor Peer.shared timeout (.store h) (framesOf pieces) "store reply" stored?).2
    = result at told ⊢
  have goes := x.goes_exchanged timeout (.store h) (framesOf pieces)
  have heard := x.world.exchange_call timeout (.call (.ofNat timeout) (.store h)) (framesOf pieces)
  have same : x.exchanged Peer.shared timeout (.store h) (framesOf pieces)
      = x.world.exchange timeout (.call (.ofNat timeout) (.store h) :: framesOf pieces) := rfl
  rw [same] at told goes ⊢
  generalize x.world.exchange timeout (.call (.ofNat timeout) (.store h) :: framesOf pieces) = r
    at told goes heard ⊢
  -- Where the mount is the same, there is no reply that the client could take for a success.
  have refused : x.world.met.mount.SameAs r.1.mount →
      (∀ messages reply, r.2 = .ok messages → Message.replyIn messages ≠ .ok reply) →
      x.world.Stores r.1 (.ofNat timeout) h pieces result := by
    intro same silent
    cases result with
    | error failure => exact .refused goes same
    | ok u =>
        obtain ⟨messages, reply, came, replied, -⟩ := told u rfl
        exact absurd replied (silent messages reply came)
  rcases heard with unheard | ⟨served, s, s', times, p, answers, endpoint, carried, mount, came⟩
  · exact refused (.of_eq unheard.mount) fun messages reply came =>
      (unheard.unanswered messages came).1 reply
  have met : s.endpoint.mount = x.world.met.mount := congrArg Endpoint.mount endpoint
  obtain ⟨s₁, answers', stored, ⟨-, takes, content, brought, done⟩ | ⟨⟨status, rfl⟩, same⟩⟩ :=
    s.serve_store times (.ofNat timeout) (p.cut ((framesOf pieces).map .ofClientFrame)) fits
  · cases stored.symm.trans carried
    obtain ⟨found, stat, proceeds⟩ := takes.found
    have placed := done.placed
    have announced := done.fulfilled.length
    rw [contentOf?_cut pieceFits p brought] at placed announced
    rw [met] at stat placed
    rw [← mount] at placed
    exact .placed served takes.accepted stat proceeds announced placed
  · cases stored.symm.trans carried
    rw [met, ← mount] at same
    refine refused same ?_
    intro messages reply came'
    cases came.symm.trans came'
    exact replyIn_cut_refusal _ status reply

/-! ### Storing

Up to the call that carries the content a store only reads the client's mount, so what is sent is
the copy that was there when it began.
-/

/-- What a client sends of a file that it has looked at. -/
theorem piecesToSend_eq {name : String} {place : Place} {f : File}
    (found : x.mount.locate name = .ok (place, .file f)) (size : UInt64) :
    x.piecesToSend name size
      = framesOf (piecesOf (min (max x.config.chunkSize 1) readLimit)
          (f.content.take size.toNat)) := by
  rw [piecesToSend, found]
  rfl

theorem fits_piecesOf (x : Site Shared) (content : Bytes) :
    ∀ piece ∈ piecesOf (min (max x.config.chunkSize 1) readLimit) content,
      Frame.Fits piece.length := by
  intro piece mem
  have limit : readLimit = 2097152 := rfl
  have short := length_le_of_mem_piecesOf (by omega) mem
  show piece.length < 2 ^ 64
  omega

/-- What it comes to when a client sends its copy of a file. -/
inductive Sends (x : Site Shared) (name : String) (x' : Site Shared)
    (result : Except Failure Unit) : Prop
  | intro {f : File} {place : Place} {h : StoreHeader} {pieces : List Bytes} :
      x.mount.locate name = .ok (place, .file f) → f.read = .ok f.content →
      h.name = name → h.version = (Mount.recordOf name f f.content).version →
      h.size = .ofNat f.size → pieces.flatten = f.told → x'.client = x.client →
      x.world.Stores x'.world (.ofNat x.config.deadline) h pieces result → Sends x name x' result

theorem sends (named : Frame.TextFits x.name) {name : String} {record : FileRecord}
    (stat : x.mount.statFile name = .ok (some record)) :
    let r := x.askFor Peer.shared x.config.deadline (.store (x.headerFor record))
      (x.piecesToSend name record.size) "store reply" stored?
    x.Sends name r.1 r.2 := by
  have nameFits := Mount.textFits_of_statFile stat
  obtain ⟨accepted, place, f, found, read, rfl⟩ := Mount.file_of_statFile stat
  have pieces : x.piecesToSend name (Mount.recordOf name f f.content).size
      = framesOf (piecesOf (min (max x.config.chunkSize 1) readLimit) f.told) :=
    x.piecesToSend_eq found _
  have fits : (x.headerFor (Mount.recordOf name f f.content)).Fits := ⟨nameFits, named⟩
  have stores := x.stores_askFor x.config.deadline fits (x.fits_piecesOf f.told)
  rw [pieces]
  obtain ⟨client, world, -⟩ := x.askFor_eq Peer.shared x.config.deadline
    (.store (x.headerFor (Mount.recordOf name f f.content)))
    (framesOf (piecesOf (min (max x.config.chunkSize 1) readLimit) f.told)) "store reply" stored?
  rw [← world] at stores
  exact .intro found read rfl rfl rfl (flatten_piecesOf _ _) client stores

/-- What a client's store does. -/
inductive StoreGoes (x : Site Shared) (name : String) :
    Site Shared → Except Failure Unit → Prop
  /-- The client's own copy is not one to be stored. -/
  | spared {failure : Failure} : StoreGoes x name x (.error failure)
  /-- The lock is refused. -/
  | locked {y : Site Shared} {failure : Failure} : y.client = x.client →
      x.world.Goes [.call (.ofNat x.config.deadline) (.requestLock name x.name)] y.world →
      y.world.mount = x.world.met.mount → StoreGoes x name y (.error failure)
  /-- The content is sent. -/
  | sent {y z : Site Shared} {result : Except Failure Unit} : y.client = x.client →
      x.world.Goes [.call (.ofNat x.config.deadline) (.requestLock name x.name)] y.world →
      y.world.mount = x.world.met.mount → y.Sends name z result → StoreGoes x name z result

theorem storeGoes (named : Frame.TextFits x.name) (name : String) :
    x.StoreGoes name (x.store Peer.shared name).1 (x.store Peer.shared name).2 := by
  unfold store ownRecord localRecord
  cases stat : x.mount.statFile name with
  | error failure => exact .spared
  | ok found =>
      cases found with
      | none => exact .spared
      | some record =>
          dsimp only
          by_cases empty : record.size = 0
          · rw [if_pos empty]
            exact .spared
          rw [if_neg empty]
          have fits : (Request.requestLock name x.name).Fits :=
            ⟨Mount.textFits_of_statFile stat, named⟩
          obtain ⟨client, world, -⟩ := x.askFor_eq Peer.shared x.config.deadline
            (.requestLock name x.name) [] "lock reply" noContent?
          have goes := x.goes_exchanged x.config.deadline (.requestLock name x.name) []
          have mount := x.mount_requestLock x.config.deadline fits
          unfold requestLock
          obtain ⟨⟨y, result⟩, granted⟩ : ∃ r, x.askFor Peer.shared x.config.deadline
            (.requestLock name x.name) [] "lock reply" noContent? = r := ⟨_, rfl⟩
          rw [← world] at goes mount
          rw [granted] at client goes mount ⊢
          cases result with
          | error failure => exact .locked client goes mount
          | ok u =>
              have named' : Frame.TextFits y.name := by
                rw [Site.name, client]
                exact named
              have stat' : y.mount.statFile name = .ok (some record) := by
                rw [Site.mount, client]
                exact stat
              exact .sent client goes mount (y.sends named' stat')

/-! ### Fetching

The content is put in place on the client after the call, and what others do meanwhile is done to
the server.
-/

/-- What an answer to a fetch brings is what is told of the file that is there. -/
theorem copies_of_fetched {e : Endpoint} {name : String} {found : Option FileRecord}
    {result : Except Failure Nat} {messages : List FetchChunk}
    (fetches : e.Fetches name (found.map FileRecord.version) result messages) {m : Mount}
    (stat : m.statFile name = .ok found) (p : Passing) {pieces : List Bytes} {bytes : UInt64}
    (brought : Message.fetched? (p.cut (answersOf (messages.map .fetch
      ++ [ServerFrame.ofFetched result]))) = some (pieces, bytes)) {now : UnixTime} {m' : Mount}
    (placed : m.Placed now name pieces.flatten m') : e.mount.Copies name now m m' := by
  cases fetches with
  | sent accepted located read proceeds _ _ bring =>
      obtain ⟨rfl, -⟩ := fetched?_cut bring.bounded _ p brought
      rw [List.filter_eq_self.2 bring.needed, ← List.flatMap_def] at placed
      have content := bring.content
      rw [FetchChunk.contentOf] at content
      rw [content] at placed
      exact ⟨accepted, _, _, located, read, Mount.yields_of_proceed stat proceeds, placed⟩
  | @refused failure messages bounded =>
      obtain ⟨-, read⟩ := fetched?_cut bounded _ p brought
      rcases ServerFrame.decode_refusal failure.status with ⟨fault, refused⟩ | ⟨s', refused⟩
      · cases refused.symm.trans read
      · cases refused.symm.trans read

/-- Asking for a file changes nothing on the server, and what the answer brings is a copy of the
file. -/
theorem exchanged_fetch (timeout : Nat) {name : String} {found : Option FileRecord} {m : Mount}
    (stat : m.statFile name = .ok found) :
    let call := .call (.ofNat timeout) (.fetch name (found.map FileRecord.version))
    let r := x.world.exchange timeout [call]
    r.1.mount = x.world.met.mount ∧
      ∀ messages pieces bytes, r.2 = .ok messages →
        Message.fetched? messages = some (pieces, bytes) →
        x.world.Served [call] r.1 ∧ ∀ now m', m.Placed now name pieces.flatten m' →
          x.world.met.mount.Copies name now m m' := by
  dsimp only
  rcases x.world.exchange_call timeout
      (.call (.ofNat timeout) (.fetch name (found.map FileRecord.version))) [] with
    unheard | ⟨done, s, s', times, p, answers, endpoint, carried, mount, came⟩
  · refine ⟨unheard.mount, ?_⟩
    intro messages pieces bytes came brought
    exact nomatch (unheard.unanswered messages came).2.symm.trans brought
  have met : s.endpoint.mount = x.world.met.mount := congrArg Endpoint.mount endpoint
  obtain ⟨s₁, result, sent, fetched, same, fetches⟩ := s.serve_fetch times (.ofNat timeout)
    (p.cut []) (Mount.textFits_of_statFile stat) (found.map FileRecord.version)
  cases fetched.symm.trans carried
  refine ⟨mount.trans (same.trans met), ?_⟩
  intro messages pieces bytes came' brought
  cases came.symm.trans came'
  refine ⟨done, ?_⟩
  intro now m' placed
  rw [← met]
  exact copies_of_fetched fetches stat _ brought placed

/-- What a client's fetch does. -/
inductive FetchGoes (x : Site Shared) (name : String) : Site Shared → Except Failure Nat → Prop
  /-- What the client has under the name is not to be looked at. -/
  | spared {failure : Failure} : FetchGoes x name x (.error failure)
  /-- There is no answer that the client would take. -/
  | refused {x' : Site Shared} {mine : Option FileVersion} {failure : Failure} :
      x'.config = x.config →
      x.world.Goes [.call (.ofNat x.config.deadline) (.fetch name mine)] x'.world →
      x'.world.mount = x.world.met.mount → x.mount.SameAs x'.mount →
        FetchGoes x name x' (.error failure)
  /-- The server's copy has come. -/
  | copied {x' : Site Shared} {mine : Option FileVersion} {result : Except Failure Nat} :
      x'.config = x.config →
      x.world.Served [.call (.ofNat x.config.deadline) (.fetch name mine)] x'.world →
      x'.world.mount = x.world.met.mount →
      x.world.met.mount.Copies name x'.world.resumed.calendar x.mount x'.mount →
        FetchGoes x name x' result

theorem fetchGoes (name : String) :
    x.FetchGoes name (x.fetch Peer.shared name).1 (x.fetch Peer.shared name).2 := by
  unfold fetch localRecord
  cases stat : x.mount.statFile name with
  | error failure => exact .spared
  | ok found =>
      dsimp only
      have goes := x.world.goes_exchange x.config.deadline
        [.call (.ofNat x.config.deadline) (.fetch name (found.map FileRecord.version))]
      obtain ⟨mount, copies⟩ := x.exchanged_fetch x.config.deadline stat
      rw [call_eq, exchanged]
      dsimp only [Peer.shared]
      generalize x.world.exchange x.config.deadline
        [.call (.ofNat x.config.deadline) (.fetch name (found.map FileRecord.version))] = r
        at goes mount copies ⊢
      obtain ⟨w, answer⟩ := r
      cases answer with
      | error fault => exact .refused rfl goes mount (.refl _)
      | ok messages =>
          have holds : Download.Holds x.mount x.mount none [] := .nothing
          have receives := Mount.receives w.resumed.calendar name messages holds
          have copies' := fun pieces bytes => copies messages pieces bytes rfl
          show x.FetchGoes name
            ((⟨x.client, w⟩ : Site Shared).withMount
              (x.mount.receive w.resumed.calendar name none messages).1)
            (x.mount.receive w.resumed.calendar name none messages).2
          generalize Message.fetched? messages = brought at receives copies'
          generalize x.mount.receive w.resumed.calendar name none messages = r at receives ⊢
          obtain ⟨m, result⟩ := r
          cases receives with
          | placed _ placed =>
              obtain ⟨served, copies⟩ := copies' _ _ rfl
              exact .copied rfl served mount (copies _ _ placed)
          | thrown _ same _ => exact .refused rfl goes mount same

/-! ### The other calls -/

/-- A delete makes a call or two, and leaves the client as it was. -/
theorem delete_goes (name : String) :
    (x.delete Peer.shared name).1.client = x.client ∧
      ∃ w, x.world.Goes [.call (.ofNat x.config.deadline) (.requestLock name x.name)] w ∧
        ((x.delete Peer.shared name).1.world = w ∨
          ∃ client, w.Goes [.call (.ofNat x.config.deadline) (.delete name client)]
            (x.delete Peer.shared name).1.world) := by
  unfold delete
  obtain ⟨client, world, -⟩ := x.askFor_eq Peer.shared x.config.deadline
    (.requestLock name x.name) [] "lock reply" noContent?
  have goes := x.goes_exchanged x.config.deadline (.requestLock name x.name) []
  unfold requestLock
  obtain ⟨⟨y, result⟩, granted⟩ : ∃ r, x.askFor Peer.shared x.config.deadline
    (.requestLock name x.name) [] "lock reply" noContent? = r := ⟨_, rfl⟩
  rw [← world] at goes
  rw [granted] at client goes ⊢
  cases result with
  | error failure => exact ⟨client, _, goes, Or.inl rfl⟩
  | ok u =>
      obtain ⟨client', world', -⟩ := y.askFor_eq Peer.shared y.config.deadline
        (.delete name y.name) [] "delete reply" noContent?
      have goes' := y.goes_exchanged y.config.deadline (.delete name y.name) []
      rw [← world'] at goes'
      have config : y.config = x.config := congrArg Client.config client
      rw [config] at goes' client'
      refine ⟨?_, _, goes, Or.inr ⟨y.name, ?_⟩⟩
      · show (y.askFor Peer.shared y.config.deadline _ _ _ _).1.client = _
        rw [config]
        exact client'.trans client
      · show y.world.Goes _ (y.askFor Peer.shared y.config.deadline _ _ _ _).1.world
        rw [config]
        exact goes'

/-- The manifest that a reply brings. -/
def manifest? : Reply → Option (List FileRecord)
  | .manifest records => some records
  | _ => none

theorem changeNotification_eq : x.changeNotification Peer.shared
    = x.askFor Peer.shared (x.config.notifyWait + x.config.deadline)
      (.changeNotification (.ofNat x.config.notifyWait)) [] "notification reply" manifest? := rfl

end Site

end MountSync
