/-
An update on the server, and a copy that nobody has edited.

The copy was brought by a fetch and shows the second in which it was written.  What the server has
under its name is what was fetched, or it was stored since the fetch was served.  The server's files
show when they were stored, so this stays true whatever anybody does.

The next round of the client compares the two times.  If the server's copy was stored in a later
second than that in which the client's was written, the client gets it.  If it was stored in that
second, the round cannot tell which of the two is newer, and leaves them to a person.  And if it was
stored in an earlier one, while the client's copy was on its way, the round takes the client's copy
for the newer one, and the update may be lost.
-/
import MountSync.Proofs.Cluster.Mirror
import MountSync.Proofs.Cluster.Round

namespace MountSync

open Timestamp

/-! ### What happens between two calls of a client -/

/-- A server and the time, and what may have become of them: others have come, the client has made
calls, and it was made up what is to come. -/
inductive Shared.Later (w : Shared) : Shared → Prop
  | refl : Later w w
  | visit {w' : Shared} (c : Connection) : Later w w' → Later w (w'.visit c)
  | call {w' : Shared} (timeout : Nat) (frames : List ClientFrame) :
      Later w w' → Later w (w'.exchange timeout frames).1
  | planned {w' : Shared} (coming : List Passage) : Later w w' → Later w { w' with coming }

theorem Shared.Later.becomes {w w' : Shared} (h : w.Later w') :
    Becomes w.mount w.now.calendar w'.mount w'.now.calendar := by
  induction h with
  | refl => exact .refl
  | @visit w' c _ ih =>
      exact ih.trans (w'.becomes_connect (Int64.le_refl _) c.times c.busy c.messages)
  | @call w' timeout frames _ ih =>
      exact ih.trans (w'.becomes_met.trans (w'.goes_exchange timeout frames).becomes)
  | planned _ _ ih => exact ih

/-! ### Copies that nobody has edited

Of the client's copy one knows when it was written, and of the server's that it was stored no
earlier than the fetch was served, if it is another one.
-/

namespace Site

/-- The client has the copy that a fetch has brought it. -/
structure Unedited (x₀ x : Site Shared) (name : String) : Prop where
  fetched : ∃ bytes, (x₀.fetch Peer.shared name).2 = .ok bytes
  later : (x₀.fetch Peer.shared name).1.world.Later x.world
  entry : x.mount.get? (.text name) = (x₀.fetch Peer.shared name).1.mount.get? (.text name)
  found : ∃ record, x.mount.statFile name = .ok (some record)

/-- When the server was done with a fetch. -/
def servedAt (x₀ : Site Shared) (name : String) : UnixTime :=
  (x₀.fetch Peer.shared name).1.world.now.calendar

/-- When the client has written what a fetch brought. -/
def writtenAt (x₀ : Site Shared) (name : String) : UnixTime :=
  (x₀.fetch Peer.shared name).1.world.resumed.calendar

variable {x₀ x y z : Site Shared} {name : String} {f g : File}

/-- What a fetch has brought shows when it was written, and the server has the same. -/
theorem fetched_since {bytes : Nat} (fetched : (x₀.fetch Peer.shared name).2 = .ok bytes) :
    ∃ f, (x₀.fetch Peer.shared name).1.mount.get? (.text name) = some (.file f) ∧ f.IsPlain ∧
      f.modified = .atSecond (x₀.writtenAt name) ∧
      (x₀.fetch Peer.shared name).1.world.mount.Since name (fileChecksum f.content)
        (x₀.servedAt name) := by
  have goes := x₀.fetchGoes name
  unfold writtenAt servedAt
  generalize x₀.fetch Peer.shared name = r at goes fetched ⊢
  obtain ⟨x', result⟩ := r
  cases goes with
  | spared => exact nomatch fetched
  | refused _ _ _ _ => exact nomatch fetched
  | copied config served server copies =>
      obtain ⟨p, g, located, -, -, -, f, puts, content, modified, kept⟩ := copies.copied
      have small : f.content.length < 2 ^ 64 := by
        rw [content, File.told, List.length_take]
        have size := (UInt64.ofNat g.size).toNat_lt
        omega
      refine ⟨f, puts.entry, ⟨kept, small⟩, modified, ?_⟩
      intro p' g' located' plain
      rw [server, located] at located'
      cases located'
      rw [content, File.told_of_isPlain plain]
      exact Or.inl rfl

/-- Whatever anybody does, what the server has is the same or was stored since. -/
theorem Unedited.has (h : Unedited x₀ x name) :
    ∃ f, x.mount.Has name f ∧ f.modified = .atSecond (x₀.writtenAt name) ∧
      x.world.mount.Since name (fileChecksum f.content) (x₀.servedAt name) := by
  obtain ⟨bytes, fetched⟩ := h.fetched
  obtain ⟨f, put, plain, modified, since⟩ := fetched_since fetched
  obtain ⟨record, stat⟩ := h.found
  obtain ⟨accepted, p, f', found, -⟩ := Mount.file_of_statFile stat
  refine ⟨f, ⟨.of_locate accepted found, h.entry.trans put, plain⟩, modified, ?_⟩
  exact (since.becomes (Int64.le_refl _) h.later.becomes).1

/-! ### The next round -/

/-- Alice's copy. -/
def fresh (second : UnixTime) : File := ⟨[2, 3], .atSecond second, 1, none⟩

end Site

end MountSync
