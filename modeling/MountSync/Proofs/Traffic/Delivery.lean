/-
What a fetch delivers.

A fetch looks at its file twice: once to announce how long it is, and once more to open it.  From
then on it reads one file, which does not change.  So what has reached the reader when the fetch
succeeds is the beginning of the content that was opened, as much of it as was announced.

If the name has come to mean a shorter file between the two looks the fetch fails.  If it has come
to mean a longer one the end of that is missing, and nobody is told.
-/
import MountSync.Proofs.Traffic.OpenFile
import MountSync.Proofs.Traffic.Ownership
import Mathlib.Data.List.Infix

namespace MountSync

namespace Traffic

/-! ### What reaches the reader

What is delivered is read off the run, move by move, and not kept anywhere in the traffic.
-/

/-- The message that a move gets to the reader of fetch `k`. -/
def handed (t : Traffic) (k : Nat) : Move → List FetchChunk
  | .handOver j .delivered =>
    if j = k then
      match (t.calls[k]?.bind Running.fetch?).map FetchCall.phase with
      | some (.offering message _) => [message]
      | _ => []
    else []
  | _ => []

/-- The messages that reach the reader of fetch `k` in a run. -/
def delivered (t : Traffic) (k : Nat) : List (Moment × Move) → List FetchChunk
  | [] => []
  | (now, move) :: rest =>
    t.handed k move ++
      match t.next now move with
      | none => []
      | some t' => delivered t' k rest

/-- The content that reaches the reader of fetch `k` in a run. -/
def received (t : Traffic) (k : Nat) (moves : List (Moment × Move)) : Bytes :=
  (t.delivered k moves).flatMap FetchChunk.content

variable {t₀ t t' : Traffic} {moves : List (Moment × Move)} {now : Moment} {move : Move}
variable {k : Nat} {e : Endpoint}

theorem delivered_concat (h : t₀.run moves = some t) (hnext : t.next now move = some t') :
    t₀.delivered k (moves ++ [(now, move)]) = t₀.delivered k moves ++ t.handed k move := by
  induction moves generalizing t₀ with
  | nil =>
      cases h
      simp [delivered, hnext]
  | cons first rest ih =>
      obtain ⟨n, m⟩ := first
      obtain ⟨u, hu, hrest⟩ := Option.bind_eq_some_iff.1 h
      rw [List.cons_append, delivered, delivered, hu]
      dsimp only
      rw [ih hrest, List.append_assoc]

theorem received_concat (h : t₀.run moves = some t) (hnext : t.next now move = some t') :
    t₀.received k (moves ++ [(now, move)])
      = t₀.received k moves ++ (t.handed k move).flatMap FetchChunk.content := by
  rw [received, delivered_concat h hnext, List.flatMap_append]
  rfl

/-- Nothing reaches the reader by the moves of others. -/
theorem handed_of_other (h : move.number? ≠ some k) : t.handed k move = [] := by
  unfold handed
  split
  · rename_i j
    rw [if_neg fun same => h (congrArg some same)]
  · rfl

theorem handed_of_offering {c : FetchCall} {message : FetchChunk} {next : AfterHandover}
    (hk : t.calls[k]? = some (.fetch c)) (hp : c.phase = .offering message next) :
    t.handed k (.handOver k .delivered) = [message] := by
  simp [handed, hk, Running.fetch?, hp]

/-- Nothing reaches the reader of a fetch that has offered nothing. -/
theorem handed_of_silent {c : FetchCall} (hk : t.calls[k]? = some (.fetch c))
    (silent : ∀ message next, c.phase ≠ .offering message next) (outcome : Handover) :
    t.handed k (.handOver k outcome) = [] := by
  cases outcome with
  | delivered =>
      cases hp : c.phase with
      | offering message next => exact absurd hp (silent message next)
      | _ => simp [handed, hk, Running.fetch?, hp]
  | readerGone => rfl
  | late => rfl

theorem handed_of_absent (hk : t.calls[k]? = none) (move : Move) : t.handed k move = [] := by
  unfold handed
  split
  · simp [hk]
  · rfl

/-- Nothing reaches the reader of a fetch that has not come yet. -/
theorem received_of_absent (e : Endpoint) (k : Nat) : ∀ moves t, (idle e).run moves = some t →
    t.calls[k]? = none → (idle e).received k moves = [] := by
  refine run_induction (fun _ => rfl) ?_
  intro moves t now move t' hrun hnext ih absent
  have before : t.calls[k]? = none := by
    cases hk : t.calls[k]? with
    | none => rfl
    | some r =>
        obtain ⟨r', hr', -⟩ := call_next_of_turn (turn_of_next hnext) hk
        rw [absent] at hr'
        exact nomatch hr'
  rw [received_concat hrun hnext, ih before, handed_of_absent before]
  rfl

/-! ### The two looks at the file

Both are moments of the run, so they are said to be there at some point of it, with the mount as it
was then.
-/

/-- In a run of `moves`, `u` is the traffic in which fetch `k` finds the file and learns what it
will announce. -/
def Announces (t₀ : Traffic) (moves : List (Moment × Move)) (k : Nat) (name : String)
    (record : FileRecord) (u : Traffic) : Prop :=
  ∃ mine deadline now limit u' after, t₀.Passes moves u now (.step k limit) u' after ∧
    u.calls[k]? = some (.fetch ⟨name, mine, deadline, .arrived⟩) ∧
    u.endpoint.mount.statFile name = .ok (some record)

/-- In a run of `moves`, `v` is the traffic in which fetch `k`, which will announce `record`, opens
the file, and `content` is what is in it. -/
def Opens (t₀ : Traffic) (moves : List (Moment × Move)) (k : Nat) (name : String)
    (record : FileRecord) (v : Traffic) (content : Bytes) : Prop :=
  ∃ mine deadline now limit v' after place f,
    t₀.Passes moves v now (.step k limit) v' after ∧
    v.calls[k]? = some (.fetch ⟨name, mine, deadline, .opening record⟩) ∧
    v.endpoint.mount.locate name = .ok (place, .file f) ∧ f.content = content

theorem Announces.concat {name : String} {record : FileRecord} {u : Traffic}
    (h : t₀.Announces moves k name record u) (m : Moment × Move) :
    t₀.Announces (moves ++ [m]) k name record u := by
  obtain ⟨mine, deadline, now, limit, u', after, hp, rest⟩ := h
  exact ⟨mine, deadline, now, limit, u', _, hp.concat m, rest⟩

theorem Opens.concat {name : String} {record : FileRecord} {v : Traffic} {content : Bytes}
    (h : t₀.Opens moves k name record v content) (m : Moment × Move) :
    t₀.Opens (moves ++ [m]) k name record v content := by
  obtain ⟨mine, deadline, now, limit, v', after, place, f, hp, rest⟩ := h
  exact ⟨mine, deadline, now, limit, v', _, place, f, hp.concat m, rest⟩

/-! ### How far a fetch has come

This is the invariant.  From the second look on it keeps the content that was opened, and says that
what has been sent is a beginning of it.
-/

/-- Fetch `k` sends what it has announced and opened, and `bytes` of it have been sent. -/
structure Sends (t₀ : Traffic) (moves : List (Moment × Move)) (k : Nat) (name : String)
    (s : Sending) (bytes : Bytes) : Prop where
  announced : ∃ u, t₀.Announces moves k name s.record u
  opened : ∃ v, t₀.Opens moves k name s.record v s.content
  sent : bytes = s.content.take s.sent
  within : s.sent ≤ s.content.length

/-- What is known of a fetch in each phase, if `bytes` have reached its reader. -/
def Progress (t₀ : Traffic) (moves : List (Moment × Move)) (k : Nat) (name : String)
    (bytes : Bytes) : FetchPhase → Prop
  | .arrived => bytes = []
  | .found record | .opening record =>
    bytes = [] ∧ ∃ u, t₀.Announces moves k name record u
  | .reading s => t₀.Sends moves k name s bytes
  | .offering message (.goOn s) => t₀.Sends moves k name s (bytes ++ message.content)
  | .offering message (.conclude n) =>
    message.content = [] ∧
      ∃ s, t₀.Sends moves k name s bytes ∧ n = s.sent ∧ n = s.record.size.toNat
  | .offering _ (.refuse _) => True
  | .finished (.ok n) => ∃ s, t₀.Sends moves k name s bytes ∧ n = s.sent ∧ n = s.record.size.toNat
  | .finished (.error _) => True

variable {name : String} {bytes : Bytes} {s : Sending}

theorem Sends.concat (h : t₀.Sends moves k name s bytes) (m : Moment × Move) :
    t₀.Sends (moves ++ [m]) k name s bytes := by
  obtain ⟨u, hu⟩ := h.announced
  obtain ⟨v, hv⟩ := h.opened
  exact ⟨⟨u, hu.concat m⟩, ⟨v, hv.concat m⟩, h.sent, h.within⟩

theorem Progress.concat {p : FetchPhase} (h : t₀.Progress moves k name bytes p)
    (m : Moment × Move) : t₀.Progress (moves ++ [m]) k name bytes p := by
  cases p with
  | arrived => exact h
  | found record =>
      obtain ⟨hb, u, hu⟩ := h
      exact ⟨hb, u, hu.concat m⟩
  | opening record =>
      obtain ⟨hb, u, hu⟩ := h
      exact ⟨hb, u, hu.concat m⟩
  | reading s => exact Sends.concat h m
  | offering message next =>
      cases next with
      | goOn s => exact Sends.concat h m
      | conclude n =>
          obtain ⟨hc, s, hs, hn⟩ := h
          exact ⟨hc, s, hs.concat m, hn⟩
      | refuse failure => trivial
  | finished result =>
      cases result with
      | ok n =>
          obtain ⟨s, hs, hn⟩ := h
          exact ⟨s, hs.concat m, hn⟩
      | error failure => trivial

/-- The next piece follows on what was sent. -/
theorem Sends.advance (h : t₀.Sends moves k name s bytes) (limit : Nat) :
    t₀.Sends moves k name (s.advance (s.nextPiece limit)) (bytes ++ s.nextPiece limit) := by
  have hlen : (s.nextPiece limit).length ≤ s.content.length - s.sent := by
    rw [s.nextPiece_eq, List.length_take, List.length_drop]
    exact Nat.min_le_right _ _
  refine ⟨h.announced, h.opened, ?_, ?_⟩
  · show bytes ++ s.nextPiece limit = s.content.take (s.sent + (s.nextPiece limit).length)
    rw [List.take_add, ← h.sent, s.nextPiece_eq, List.length_take, ← List.take_eq_take_min]
  · show s.sent + (s.nextPiece limit).length ≤ s.content.length
    have hw := h.within
    omega

/-! ### Every fetch -/

theorem progress_of_step {c c' : FetchCall} {e' : Endpoint} {limit : Nat}
    (hrun : t₀.run moves = some t) (sound : t.Sound)
    (hnext : t.next now (.step k limit) = some t') (hk : t.calls[k]? = some (.fetch c))
    (hstep : c.step t.endpoint now limit = (e', c'))
    (ih : t₀.Progress moves k c.name bytes c.phase) :
    t₀.Progress (moves ++ [(now, .step k limit)]) k c.name bytes c'.phase := by
  have hcases := (c.step_cases t.endpoint now limit).1
  rw [hstep] at hcases
  -- A file that is open has not changed since it was opened.
  have unchanged : ∀ s, c.phase = .reading s → s.refresh t.endpoint.mount = s := by
    intro s hp
    exact Sending.refresh_eq (sound.same s.handle (openFiles_of_sending hk (by rw [hp]; rfl)))
  obtain ⟨name, mine, deadline, phase⟩ := c
  dsimp only at ih hcases unchanged ⊢
  generalize c'.phase = phase' at hcases ⊢
  cases hcases with
  | looked hstat => exact ⟨ih, t, mine, deadline, now, limit, t', [], .last hrun hnext, hk, hstat⟩
  | decided =>
      obtain ⟨hb, u, hu⟩ := ih
      exact ⟨hb, u, hu.concat _⟩
  | declined => trivial
  | @opened record place f hloc =>
      obtain ⟨rfl, u, hu⟩ := ih
      refine ⟨⟨u, hu.concat _⟩, ⟨t, ?_⟩, rfl, Nat.zero_le _⟩
      exact ⟨mine, deadline, now, limit, t', [], place, f, .last hrun hnext, hk, hloc, rfl⟩
  | @read s s' href =>
      rw [unchanged s rfl] at href
      subst href
      exact (Sends.advance ih _).concat _
  | @emptied s s' href all none =>
      rw [unchanged s rfl] at href
      subst href
      exact ⟨rfl, s', Sends.concat ih _, none.symm, none.symm.trans all⟩
  | @ended s s' href all =>
      rw [unchanged s rfl] at href
      subst href
      exact ⟨s', Sends.concat ih _, rfl, all⟩
  | failed => trivial
  | rested => exact ih.concat _

theorem progress_of_run {e : Endpoint} (numbered : e.mount.tree.Numbered) :
    ∀ moves t, (idle e).run moves = some t → ∀ (k : Nat) (c : FetchCall),
      t.calls[k]? = some (.fetch c) →
      (idle e).Progress moves k c.name ((idle e).received k moves) c.phase := by
  refine run_induction (fun k c hk => by simp [idle] at hk) ?_
  intro moves t now move t' hrun hnext ih k c' hk'
  rw [received_concat hrun hnext]
  rcases call_of_turn (turn_of_next hnext) hk' with ⟨hk, hother⟩ | ⟨r, hk, acts⟩ |
    ⟨absent, fresh, -⟩
  · rw [handed_of_other hother, List.flatMap_nil, List.append_nil]
    exact (ih k c' hk).concat _
  · have horigin := acts.stride.origin
    cases acts with
    | @fetch c _ _ limit hstep =>
        rw [Running.name_of_origin horigin]
        show Progress _ _ _ _ ((idle e).received k moves ++ []) _
        rw [List.append_nil]
        exact progress_of_step hrun (sound_of_run numbered moves t hrun) hnext hk hstep (ih k c hk)
    | @handOver c _ _ outcome hstep =>
        rw [Running.name_of_origin horigin]
        have hcases := (c.handOver_cases t.endpoint outcome).1
        rw [hstep] at hcases
        have before := (ih k c hk).concat (now, .handOver k outcome)
        generalize hp : c.phase = p at hcases before
        generalize c'.phase = p' at hcases ⊢
        cases hcases with
        | wentOn =>
            rw [handed_of_offering hk hp, List.flatMap_singleton]
            exact before
        | concluded =>
            obtain ⟨hcontent, rest⟩ := before
            rw [handed_of_offering hk hp, List.flatMap_singleton, hcontent, List.append_nil]
            exact rest
        | failed => trivial
        | rested nothing =>
            rw [handed_of_silent hk (hp ▸ nothing), List.flatMap_nil, List.append_nil]
            exact before
  · rw [Running.phase_of_fresh_fetch fresh, handed_of_absent absent,
      received_of_absent e k moves t hrun absent]
    rfl

/--
**A fetch that succeeds has delivered the beginning of one content of its file.**

It is the content at the moment at which the file was opened, as far as the size that was announced
goes, and that is never further than the content goes.  So the content is delivered as a whole
exactly if the file has the announced size when it is opened.
-/
theorem delivers_beginning {e : Endpoint} (numbered : e.mount.tree.Numbered)
    {moves : List (Moment × Move)} {t : Traffic} (h : (idle e).run moves = some t) {k n : Nat}
    {c : FetchCall} (hk : t.calls[k]? = some (.fetch c)) (hr : c.result? = some (.ok n)) :
    ∃ record content u v, (idle e).Announces moves k c.name record u ∧
      (idle e).Opens moves k c.name record v content ∧
      n = record.size.toNat ∧ n ≤ content.length ∧
      (idle e).received k moves = content.take n ∧
      ((idle e).received k moves = content ↔ content.length = n) := by
  have progress := progress_of_run numbered moves t h k c hk
  have ended : c.phase = .finished (.ok n) := by
    unfold FetchCall.result? at hr
    split at hr
    · rename_i hp
      rw [hp, Option.some.inj hr]
    · cases hr
  rw [ended] at progress
  obtain ⟨s, sends, rfl, hsize⟩ := progress
  obtain ⟨u, hu⟩ := sends.announced
  obtain ⟨v, hv⟩ := sends.opened
  refine ⟨s.record, s.content, u, v, hu, hv, hsize, sends.within, sends.sent, ?_⟩
  have within := sends.within
  rw [sends.sent, List.take_eq_self_iff]
  omega

/-! ### A fetch between two versions

The file is one byte long when its size is announced, and two bytes long when it is opened.
-/

/-- An endpoint with a file of one byte. -/
def shortFile : Endpoint :=
  let mount := Mount.empty .bare [.text "m"]
  .create (mount.withTree (mount.tree.create (mount.placeOf (.text "f")) [1] (.atSecond 5))) 8 8

/-- Alice replaces the file between the two looks of a fetch. -/
def replacedBetween : List (Moment × Move) :=
  atOnce [.beginFetch "f" none ⟨100⟩, .step 0 0, .step 0 0,
    .requestLock "f" "alice" ⟨100⟩, .beginStore (headerOf "f" "alice" [2, 3] 9) ⟨100⟩,
    .step 1 0, .step 1 0, .step 1 0, .stream 1 (.chunk [2, 3]), .stream 1 .ended, .step 1 0,
    .step 1 0,
    .step 0 0, .step 0 8, .handOver 0 .delivered, .step 0 8]

theorem numbered_shortFile : shortFile.mount.tree.Numbered :=
  (FileTree.numbered_bare.put _ (by simp)).create _ _ _

/-- The content of the file that a name leads to. -/
def contentOf (name : String) (t : Traffic) : Option Bytes :=
  match t.endpoint.mount.locate name with
  | .ok (_, .file f) => some f.content
  | _ => none

theorem run_replacedBetween :
    ∃ t c, (idle shortFile).run replacedBetween = some t ∧ t.calls[0]? = some (.fetch c) ∧
      c.name = "f" ∧ c.result? = some (.ok 1) := by
  have h : ((idle shortFile).run replacedBetween).map (fun t =>
      (t.calls[0]?.bind Running.fetch?).map fun c => (c.name, c.result?.bind Except.toOption))
        = some (some ("f", some 1)) := by decide +kernel
  obtain ⟨t, ht, hcall⟩ := Option.map_eq_some_iff.1 h
  obtain ⟨c, hc, hview⟩ := Option.map_eq_some_iff.1 hcall
  obtain ⟨hname, hresult⟩ := Prod.mk.inj hview
  refine ⟨t, c, ht, getElem?_of_fetch? hc, hname, ?_⟩
  obtain ⟨result, hres, hok⟩ := Option.bind_eq_some_iff.1 hresult
  rw [hres]
  cases result with
  | ok n => cases hok; rfl
  | error failure => cases hok

/-- What is delivered need not be a whole content that the file has ever had. -/
theorem delivered_need_not_be_whole :
    ¬ ∀ (e : Endpoint) (moves : List (Moment × Move)) (t : Traffic) (k n : Nat) (c : FetchCall),
      e.mount.tree.Numbered → (idle e).run moves = some t → t.calls[k]? = some (.fetch c) →
      c.result? = some (.ok n) →
      ∃ before after v, moves = before ++ after ∧ (idle e).run before = some v ∧
        contentOf c.name v = some ((idle e).received k moves) := by
  intro claim
  obtain ⟨t, c, ht, hc, hname, hresult⟩ := run_replacedBetween
  obtain ⟨before, after, v, hsplit, hv, hcontent⟩ :=
    claim shortFile replacedBetween t 0 1 c numbered_shortFile ht hc hresult
  have never : ∀ before ∈ replacedBetween.inits,
      ((idle shortFile).run before).map (contentOf "f")
        ≠ some (some ((idle shortFile).received 0 replacedBetween)) := by decide +kernel
  refine never before ((List.mem_inits _ _).2 ⟨after, hsplit.symm⟩) ?_
  rw [hv, ← hname, ← hcontent]
  rfl

/-- The reader gets the first byte of the two. -/
theorem replacedBetween_delivers :
    ∃ t c, (idle shortFile).run replacedBetween = some t ∧ t.calls[0]? = some (.fetch c) ∧
      c.result? = some (.ok 1) ∧ ∃ record content u v,
        (idle shortFile).Announces replacedBetween 0 c.name record u ∧
        (idle shortFile).Opens replacedBetween 0 c.name record v content ∧
        1 = record.size.toNat ∧ 1 ≤ content.length ∧
        (idle shortFile).received 0 replacedBetween = content.take 1 ∧
        ((idle shortFile).received 0 replacedBetween = content ↔ content.length = 1) := by
  obtain ⟨t, c, ht, hc, -, hresult⟩ := run_replacedBetween
  exact ⟨t, c, ht, hc, hresult, delivers_beginning numbered_shortFile ht hc hresult⟩

end Traffic

end MountSync
