import ImageRegistry.Proofs.Registry.Keeping

/-!
# Reads that are under way

A request that finds no manifest asks the gateway for it, and others are served in the meantime.
So such a request is three steps here and not one: it looks the manifest up, it fetches it, and
what has arrived is stored. `Traffic` is a server with the reads that are under way, each for a
client, and a list of moves stands for every order in which their steps can fall among those of
other clients; a push is one step. The three steps one after the other are what `serveManifest`
does (`server_run_read`).

The last of these steps does not look again whether the manifest is still missing. So what was
pushed is found from then on (`found_after_push`), unless a read was under way for the very
reference when it was pushed: what that one brings takes its place
(`found_after_push_landed`). No read comes to be under way for a reference that has a manifest, so
those that were under way at the push are all that there is to fear.
-/

namespace ImageRegistry

open ImageRegistry.Action Http

namespace Server

/-! ### The two parts of a pull -/

/-- Adds the links that a manifest gives rise to when it is pulled. -/
def warm (repository : String) (manifest : Manifest) : Action Server RegistryError Unit :=
  match manifest.origin with
  | some identifier => addLinks repository identifier (warmed manifest)
  | none => return ()

/-- A pull up to the point where the manifest is stored. -/
def bring (repository reference : String) : Action Server RegistryError Manifest := do
  let manifest ← obtain repository reference
  warm repository manifest
  return manifest

/-- A pull brings a manifest, and then stores it. -/
theorem pull_eq_bring (repository reference : String) :
    pull repository reference = bring repository reference >>= fun m ↦
      keep repository reference m >>= fun _ ↦ pure m := by
  rw [pull, bring, bind_assoc]
  congr 1
  funext m
  rw [bind_assoc, warm]
  cases m.origin with
  | none => rfl
  | some identifier => rfl

theorem keeps_bring (repository reference : String) :
    Keeps stored (bring repository reference) := by
  have hwarm (m : Manifest) : Keeps stored (warm repository m) := by
    rw [warm]
    cases m.origin with
    | none => exact keeps_pure _ ()
    | some identifier => exact keeps_addLinks repository identifier _
  refine keeps_bind (keeps_obtain repository reference) fun m ↦ ?_
  exact keeps_bind (hwarm m) fun _ ↦ keeps_pure _ m

/-- What is brought has the digest of its bytes. -/
theorem hashed_of_run_bring {repository reference : String} {s t : Server} {m : Manifest}
    (h : (bring repository reference).run s = (.done m, t)) :
    m.digest = Digest.ofContent m.body := by
  obtain ⟨obtained, u, hobtain, h⟩ := run_bind_eq_done.1 h
  obtain ⟨-, v, -, h⟩ := run_bind_eq_done.1 h
  obtain ⟨identifier, body, -, hmade⟩ := offers_of_run_obtain hobtain
  cases h
  rw [hmade]
  rfl

end Server

/-! ### Traffic -/

/-- A read of a manifest that has found none. -/
inductive Flight where
  /-- Nothing has been asked for it yet. -/
  | missed (repository reference : String)
  /-- Its manifest is there, and is not stored yet. -/
  | arrived (repository reference : String) (manifest : Manifest)

/-- The repository and the reference that a read is for. -/
def Flight.target : Flight → String × String
  | missed repository reference => (repository, reference)
  | arrived repository reference _ => (repository, reference)

/-- A server with the reads that are under way, by the number of the client. -/
structure Traffic where
  server : Server
  flights : Table Nat Flight

/-- What can happen next. -/
inductive Move where
  /-- What happens in one step: among other things a push, or a read that nothing comes between. -/
  | event (e : Server.Event)
  /-- A client looks a manifest up. If it is there, that is all. -/
  | look (client : Nat) (repository reference : String)
  /-- The read of a client asks the gateway, and links are added. -/
  | fetch (client : Nat)
  /-- The read of a client stores what has arrived. -/
  | land (client : Nat)

namespace Traffic

open Server

/-- The traffic of a registry that is planned, with nothing in it, in a world. -/
def start (plan : Settings.Plan) (world : World) : Traffic := ⟨Server.start plan world, ∅⟩

/-- The manifest under a reference. -/
def get? (t : Traffic) (repository reference : String) : Option Manifest :=
  t.server.registry.manifests.get? repository reference

/-- The traffic after the gateway was asked for a manifest for a client. A read that fails is over;
one that gets no answer stays under way. -/
def fetched (t : Traffic) (client : Nat) (repository reference : String) : Traffic :=
  match (bring repository reference).run t.server with
  | (.done manifest, s) => ⟨s, t.flights.insert client (.arrived repository reference manifest)⟩
  | (.failed _, s) => ⟨s, t.flights.erase client⟩
  | (.stuck, s) => ⟨s, t.flights⟩

/-- The traffic after a manifest that has arrived for a client is stored. -/
def landed (t : Traffic) (client : Nat) (repository reference : String) (manifest : Manifest) :
    Traffic where
  server := t.server.withManifests
    (t.server.registry.manifests.insert repository reference manifest)
  flights := t.flights.erase client

/-- The traffic after a move. A client has one read under way at most. -/
def take (t : Traffic) : Move → Traffic
  | .event e => { t with server := t.server.take e }
  | .look client repository reference =>
    if (t.flights.get? client).isSome || (t.get? repository reference).isSome then t
    else { t with flights := t.flights.insert client (.missed repository reference) }
  | .fetch client =>
    match t.flights.get? client with
    | some (.missed repository reference) => t.fetched client repository reference
    | some (.arrived ..) => t
    | none => t
  | .land client =>
    match t.flights.get? client with
    | some (.missed ..) => t
    | some (.arrived repository reference manifest) =>
      t.landed client repository reference manifest
    | none => t

/-- The traffic after some moves. -/
def run (t : Traffic) (moves : List Move) : Traffic := moves.foldl take t

@[simp] theorem run_nil (t : Traffic) : t.run [] = t := rfl

theorem run_append (t : Traffic) (before after : List Move) :
    t.run (before ++ after) = (t.run before).run after := List.foldl_append

theorem run_concat (t : Traffic) (moves : List Move) (move : Move) :
    t.run (moves ++ [move]) = (t.run moves).take move := run_append t moves [move]

/-- The three steps of a read that nothing comes between are a read in one step. -/
theorem server_run_read (t : Traffic) {client : Nat} (hfree : t.flights.get? client = none)
    (method : Method) (repository reference : String) :
    (t.run [.look client repository reference, .fetch client, .land client]).server =
      ((serveManifest method repository reference).run t.server).2 := by
  show (((t.take (.look client repository reference)).take (.fetch client)).take
    (.land client)).server = _
  cases hget : t.get? repository reference with
  | some m =>
    have hlook : t.take (.look client repository reference) = t := by
      rw [take, hget, Option.isSome_some, Bool.or_true, if_pos rfl]
    have hfetch : t.take (.fetch client) = t := by rw [take, hfree]
    have hland : t.take (.land client) = t := by rw [take, hfree]
    rw [hlook, hfetch, hland, run_serveManifest_of_found hget]
  | none =>
    have hlook : t.take (.look client repository reference) =
        { t with flights := t.flights.insert client (.missed repository reference) } := by
      rw [take, hget, hfree, Option.isSome_none, Option.isSome_none, Bool.or_false,
        if_neg Bool.false_ne_true]
    rw [hlook, run_serveManifest_of_missing hget, snd_run_map, pull_eq_bring, run_bind]
    rw [take, take]
    dsimp only
    rw [Table.get?_insert_self]
    dsimp only
    rw [fetched]
    rcases hrun : (bring repository reference).run t.server with ⟨m | error | _, s⟩
    · dsimp only
      rw [Table.get?_insert_self]
      rfl
    · dsimp only
      rw [Table.get?_erase_self]
    · dsimp only
      rw [Table.get?_insert_self]

/-! ### What a move can do -/

/-- What a move can make of the traffic. -/
inductive Moved (t : Traffic) : Move → Traffic → Prop where
  | idle (move : Move) : Moved t move t
  | event (e : Event) : Moved t (.event e) { t with server := t.server.take e }
  | missed (client : Nat) (repository reference : String)
      (missing : t.get? repository reference = none) :
    Moved t (.look client repository reference)
      { t with flights := t.flights.insert client (.missed repository reference) }
  | arrived (client : Nat) (repository reference : String) (m : Manifest) (s : Server)
      (waits : t.flights.get? client = some (.missed repository reference))
      (hashed : m.digest = Digest.ofContent m.body)
      (kept : s.registry.manifests = t.server.registry.manifests) :
    Moved t (.fetch client) ⟨s, t.flights.insert client (.arrived repository reference m)⟩
  | failed (client : Nat) (s : Server) (kept : s.registry.manifests = t.server.registry.manifests) :
    Moved t (.fetch client) ⟨s, t.flights.erase client⟩
  | hung (client : Nat) (s : Server) (kept : s.registry.manifests = t.server.registry.manifests) :
    Moved t (.fetch client) ⟨s, t.flights⟩
  | landed (client : Nat) (repository reference : String) (m : Manifest)
      (waits : t.flights.get? client = some (.arrived repository reference m)) :
    Moved t (.land client) (t.landed client repository reference m)

theorem moved (t : Traffic) (move : Move) : Moved t move (t.take move) := by
  cases move with
  | event e => exact .event e
  | look client repository reference =>
    rw [take]
    split
    · exact .idle _
    · next h =>
      rw [Bool.or_eq_true, not_or, Option.not_isSome_iff_eq_none,
        Option.not_isSome_iff_eq_none] at h
      exact .missed client repository reference h.2
  | fetch client =>
    rw [take]
    split
    · next repository reference hwaits =>
      have hkept := congrArg Prod.snd (keeps_bring repository reference t.server)
      rw [fetched]
      rcases hrun : (bring repository reference).run t.server with ⟨m | error | _, s⟩
      · rw [hrun] at hkept
        exact .arrived client repository reference m s hwaits (hashed_of_run_bring hrun) hkept
      · rw [hrun] at hkept
        exact .failed client s hkept
      · rw [hrun] at hkept
        exact .hung client s hkept
    · exact .idle _
    · exact .idle _
  | land client =>
    rw [take]
    split
    · exact .idle _
    · next repository reference m hwaits => exact .landed client repository reference m hwaits
    · exact .idle _

/-! ### Digests -/

variable {t : Traffic} {client : Nat} {repository reference : String} {m : Manifest}

/-- A read that is under way was so before the move, or it has found nothing by it, or it was under
way and its manifest has arrived. -/
theorem flight_take {move : Move} {flight : Flight}
    (h : (t.take move).flights.get? client = some flight) :
    t.flights.get? client = some flight ∨
      (∃ repository reference, flight = .missed repository reference ∧
        t.get? repository reference = none) ∨
      ∃ repository reference m, flight = .arrived repository reference m ∧
        m.digest = Digest.ofContent m.body ∧
        t.flights.get? client = some (.missed repository reference) := by
  have hmoved := t.moved move
  generalize t.take move = u at hmoved h
  cases hmoved with
  | idle | event | hung => exact Or.inl h
  | missed other repository reference missing =>
    rw [Table.get?_insert] at h
    split at h
    · cases h
      exact Or.inr (Or.inl ⟨repository, reference, rfl, missing⟩)
    · exact Or.inl h
  | arrived other repository reference m s waits hashed =>
    rw [Table.get?_insert] at h
    split at h
    · next hsame =>
      cases h
      rw [hsame] at waits
      exact Or.inr (Or.inr ⟨repository, reference, m, rfl, hashed, waits⟩)
    · exact Or.inl h
  | failed other | landed other =>
    have hleft : (t.flights.erase other).get? client = some flight := h
    rw [Table.get?_erase] at hleft
    split at hleft
    · cases hleft
    · exact Or.inl hleft

/-- Each manifest that is stored, or has arrived, has the digest of its bytes. -/
structure Hashed (t : Traffic) : Prop where
  stored : ∀ repository key m, t.get? repository key = some m → m.digest = Digest.ofContent m.body
  arrived : ∀ client repository reference m,
    t.flights.get? client = some (.arrived repository reference m) →
      m.digest = Digest.ofContent m.body

theorem hashed_take (h : t.Hashed) (move : Move) : (t.take move).Hashed := by
  refine ⟨fun repository key m hget ↦ ?_, fun client repository reference m hflight ↦ ?_⟩
  · have hmoved := t.moved move
    generalize t.take move = u at hmoved hget
    cases hmoved with
    | idle | missed => exact h.stored repository key m hget
    | event e =>
      rcases named_of_take t.server e hget with hold | ⟨hhashed, -⟩
      · exact h.stored repository key m hold
      · exact hhashed
    | arrived _ _ _ _ s _ _ kept | failed _ s kept | hung _ s kept =>
      have hold : s.registry.manifests.get? repository key = some m := hget
      rw [kept] at hold
      exact h.stored repository key m hold
    | landed client r reference arrived waits =>
      have hafter : (t.server.registry.manifests.insert r reference arrived).get? repository key =
        some m := hget
      rw [Manifest.Store.get?_insert] at hafter
      split at hafter
      · cases hafter
        exact h.arrived client r reference m waits
      · exact h.stored repository key m hafter
  · rcases flight_take hflight with hold | ⟨r, f, hmissed, -⟩ | ⟨r, f, arrived, hflight, hhashed, -⟩
    · exact h.arrived client repository reference m hold
    · cases hmissed
    · cases hflight
      exact hhashed

theorem hashed_run (plan : Settings.Plan) (world : World) (moves : List Move) :
    ((start plan world).run moves).Hashed := by
  induction moves using List.reverseRecOn with
  | nil =>
    refine ⟨fun repository key m hget ↦ ?_, fun client repository reference m hflight ↦ ?_⟩
    · cases hget
    · cases hflight
  | append_singleton moves move ih =>
    rw [run_concat]
    exact hashed_take ih move

/-! ### What lands -/

/-- A client waits for a manifest. -/
def Awaits (t : Traffic) (client : Nat) (repository reference : String) : Prop :=
  ∃ flight, t.flights.get? client = some flight ∧ flight.target = (repository, reference)

/-- In the course of some moves a manifest is stored that has arrived for a client. -/
def Lands (t : Traffic) (moves : List Move) (client : Nat) (repository reference : String)
    (m : Manifest) : Prop :=
  ∃ before after, moves = before ++ .land client :: after ∧
    (t.run before).flights.get? client = some (.arrived repository reference m)

/-- In the course of some moves a manifest is pushed under a reference. -/
def PushedIn (t : Traffic) (moves : List Move) (repository reference : String) : Prop :=
  ∃ before request after, moves = before ++ .event (.request request) :: after ∧
    Pushes (t.run before).server request repository reference

theorem PushedIn.append {moves : List Move} (h : t.PushedIn moves repository reference)
    (more : List Move) : t.PushedIn (moves ++ more) repository reference := by
  obtain ⟨before, request, after, rfl, hpushes⟩ := h
  exact ⟨before, request, after ++ more, by simp, hpushes⟩

/-- A push is an event, and never a step of a read. -/
theorem not_pushedIn_of_reads {moves : List Move} (h : ∀ e, .event e ∉ moves) :
    ¬ t.PushedIn moves repository reference := by
  rintro ⟨before, request, after, rfl, -⟩
  exact h (.request request) (by simp)

/-- No client comes to wait for a manifest that is there. -/
theorem awaits_take (hget : t.get? repository reference = some m) {move : Move}
    (h : (t.take move).Awaits client repository reference) :
    t.Awaits client repository reference := by
  obtain ⟨flight, hflight, htarget⟩ := h
  rcases flight_take hflight with hold | ⟨r, f, rfl, hmissing⟩ | ⟨r, f, arrived, rfl, -, hwaits⟩
  · exact ⟨flight, hold, htarget⟩
  · obtain ⟨rfl, rfl⟩ := Prod.mk.inj htarget
    cases hmissing.symm.trans hget
  · exact ⟨_, hwaits, htarget⟩

/-- A reference that has a manifest keeps it, unless another one is pushed under it or lands, or one
comes in that has the reference for its digest. -/
theorem found_take (hhashed : t.Hashed) (hget : t.get? repository reference = some m)
    (move : Move) :
    ∃ found, (t.take move).get? repository reference = some found ∧
      (found = m ∨ Digest.ofContent found.body = reference ∨
        (∃ request, move = .event (.request request) ∧
          Pushes t.server request repository reference) ∨
        ∃ client, move = .land client ∧
          t.flights.get? client = some (.arrived repository reference found)) := by
  have hmoved := t.moved move
  generalize t.take move = u at hmoved ⊢
  cases hmoved with
  | idle | missed => exact ⟨m, hget, Or.inl rfl⟩
  | event e =>
    obtain ⟨found, hfound, hsame | hdigest | ⟨request, rfl, hpushes⟩⟩ := Server.found_take hget e
    · exact ⟨found, hfound, Or.inl hsame⟩
    · exact ⟨found, hfound, Or.inr (Or.inl hdigest)⟩
    · exact ⟨found, hfound, Or.inr (Or.inr (Or.inl ⟨request, rfl, hpushes⟩))⟩
  | arrived _ _ _ _ s _ _ kept | failed _ s kept | hung _ s kept =>
    refine ⟨m, ?_, Or.inl rfl⟩
    show s.registry.manifests.get? repository reference = some m
    rw [kept]
    exact hget
  | landed client r landed arrived waits =>
    obtain ⟨found, hfound, hsame | ⟨rfl, rfl, rfl | hdigest⟩⟩ :=
      Manifest.Store.found_insert r landed arrived hget
    · exact ⟨found, hfound, Or.inl hsame⟩
    · exact ⟨found, hfound, Or.inr (Or.inr (Or.inr ⟨client, rfl, waits⟩))⟩
    · refine ⟨found, hfound, Or.inr (Or.inl ?_)⟩
      rw [← hhashed.arrived client _ _ _ waits, hdigest]

/-- A manifest stays under a reference that nothing is pushed under, except for what comes in with
that digest and for what lands of the reads that were under way from the start. -/
theorem found_run (hhashed : ∀ before, (t.run before).Hashed)
    (hget : t.get? repository reference = some m) (moves : List Move)
    (hnone : ¬ t.PushedIn moves repository reference) :
    (∃ found, (t.run moves).get? repository reference = some found ∧
      (found = m ∨ Digest.ofContent found.body = reference ∨
        ∃ client, t.Awaits client repository reference ∧
          t.Lands moves client repository reference found)) ∧
      ∀ client, (t.run moves).Awaits client repository reference →
        t.Awaits client repository reference := by
  induction moves using List.reverseRecOn with
  | nil => exact ⟨⟨m, hget, Or.inl rfl⟩, fun _ h ↦ h⟩
  | append_singleton moves move ih =>
    obtain ⟨⟨old, hold, hwhich⟩, hwaits⟩ := ih fun hin ↦ hnone (hin.append [move])
    rw [run_concat]
    refine ⟨?_, fun client h ↦ hwaits client (awaits_take hold h)⟩
    obtain ⟨found, hfound, rfl | hdigest | ⟨request, rfl, hpushes⟩ | ⟨client, rfl, hlands⟩⟩ :=
      found_take (hhashed moves) hold move
    · refine ⟨found, hfound, hwhich.imp_right (Or.imp_right ?_)⟩
      rintro ⟨client, hawaits, before, after, rfl, hlands⟩
      exact ⟨client, hawaits, before, after ++ [move], by simp, hlands⟩
    · exact ⟨found, hfound, Or.inr (Or.inl hdigest)⟩
    · exact absurd ⟨moves, request, [], rfl, hpushes⟩ hnone
    · refine ⟨found, hfound, Or.inr (Or.inr ⟨client, hwaits client ⟨_, hlands, rfl⟩, ?_⟩)⟩
      exact ⟨moves, [], rfl, hlands⟩

/-- What is pushed is found at once. -/
theorem get?_of_pushes {request : Request}
    (h : Pushes t.server request repository reference) :
    (t.take (.event (.request request))).get? repository reference =
      some (pushedManifest request) := by
  obtain ⟨-, hstored⟩ := stored_of_pushes h
  show ((handle request).run t.server).2.registry.manifests.get? _ _ = _
  rw [hstored]
  show (Manifest.Store.insert _ _ _ _).get? _ _ = _
  rw [Manifest.Store.get?_insert, if_pos ⟨rfl, Or.inl rfl⟩]

/-- What is pushed under a reference is found there from then on, however the steps of other
requests fall, until something else is pushed under it, but for two cases: under a digest there may
be other bytes with that very digest, and a read for that reference that was already under way at
the push puts what it brings in the place of what was pushed. -/
theorem found_after_push (plan : Settings.Plan) (world : World) (before after : List Move)
    (request : Request) {repository reference : String}
    (hpushes : Pushes ((start plan world).run before).server request repository reference)
    (hnone : ¬ ((start plan world).run (before ++ [.event (.request request)])).PushedIn after
      repository reference) :
    let t := (start plan world).run (before ++ [.event (.request request)])
    ∃ found, (t.run after).get? repository reference = some found ∧
      (found = pushedManifest request ∨
        Digest.ofContent found.body = reference ∧ Digest.ofContent request.body = reference ∨
        ∃ client, t.Awaits client repository reference ∧
          t.Lands after client repository reference found) := by
  intro t
  have ht : t = ((start plan world).run before).take (.event (.request request)) := run_concat ..
  have hget : t.get? repository reference = some (pushedManifest request) := by
    rw [ht, get?_of_pushes hpushes]
  have hhashed (moves : List Move) : (t.run moves).Hashed := by
    show (((start plan world).run _).run moves).Hashed
    rw [← run_append]
    exact hashed_run plan world _
  obtain ⟨⟨found, hfound, hwhich⟩, -⟩ := found_run hhashed hget after hnone
  refine ⟨found, hfound, hwhich.imp_right (Or.imp_left fun hdigest ↦ ⟨hdigest, ?_⟩)⟩
  have hshape : Digest.isDigest reference = true := by
    rw [← hdigest]
    exact Digest.isDigest_ofContent found.body
  exact ((stored_of_pushes hpushes).1.named hshape).symm

/-- Reads that come behind a push find what was pushed. -/
theorem found_after_push_read :
    let plan : Settings.Plan := ⟨defaultGateway, none, [.fixed "fixed" ["image"]], 0, none, none⟩
    let world : World := ⟨∅, ⟨fun _ ↦ .answer ⟨.ok, []⟩ (.complete "pulled".toUTF8), []⟩, [], 0,
      fun _ ↦ "fresh", 0⟩
    let push : Request :=
      ⟨.put, ⟨none, none, "/v2/library/manifests/v1", none⟩, [], "pushed".toUTF8⟩
    let t := (start plan world).run [.event (.request push)]
    (t.run [.look 0 "library" "v1", .fetch 0, .land 0]).get? "library" "v1" =
      some (pushedManifest push) := by
  intro plan world push t
  have hpushes : Pushes ((start plan world).run []).server push "library" "v1" := by
    obtain ⟨response, hvalue, hsuccess⟩ : ∃ response ∈ ((handle push).run
        ((start plan world).run []).server).1.value?, response.status.isSuccess = true := by
      decide +kernel +revert
    have haddressed : addressed? push = some (.manifest "library" "v1") := by decide +kernel
    exact ⟨rfl, haddressed, response, Outcome.value?_eq_some_iff.1 hvalue, hsuccess⟩
  obtain ⟨found, hfound, hsame | ⟨hdigest, -⟩ | ⟨client, ⟨flight, hflight, -⟩, -⟩⟩ :=
    found_after_push plan world [] [.look 0 "library" "v1", .fetch 0, .land 0] push hpushes
      (not_pushedIn_of_reads (by simp))
  · exact hfound.trans (congrArg some hsame)
  · exact absurd hdigest (ofContent_ne_tag (by decide) found.body)
  · cases hflight

/-- A manifest has arrived when another one is pushed under its tag, and it is stored afterwards: it
is found, and what was pushed is not. -/
theorem found_after_push_landed :
    let plan : Settings.Plan := ⟨defaultGateway, none, [.fixed "fixed" ["image"]], 0, none, none⟩
    let world : World := ⟨∅, ⟨fun _ ↦ .answer ⟨.ok, []⟩ (.complete "pulled".toUTF8), []⟩, [], 0,
      fun _ ↦ "fresh", 0⟩
    let push : Request :=
      ⟨.put, ⟨none, none, "/v2/library/manifests/v1", none⟩, [], "pushed".toUTF8⟩
    let before := (start plan world).run [.look 0 "library" "v1", .fetch 0]
    let pushed := before.take (.event (.request push))
    let landed := pushed.run [.land 0]
    Pushes before.server push "library" "v1" ∧ ¬ pushed.PushedIn [.land 0] "library" "v1" ∧
      pushed.get? "library" "v1" = some (pushedManifest push) ∧
      ∃ found ∈ landed.get? "library" "v1", found.body ≠ push.body := by
  intro plan world push before pushed landed
  have hlanded : ∃ found ∈ landed.get? "library" "v1", found.body ≠ push.body := by
    decide +kernel +revert
  obtain ⟨response, hvalue, hsuccess⟩ : ∃ response ∈ ((handle push).run before.server).1.value?,
      response.status.isSuccess = true := by decide +kernel +revert
  have haddressed : addressed? push = some (.manifest "library" "v1") := by decide +kernel
  have hpushes : Pushes before.server push "library" "v1" :=
    ⟨rfl, haddressed, response, Outcome.value?_eq_some_iff.1 hvalue, hsuccess⟩
  exact ⟨hpushes, not_pushedIn_of_reads (by simp), get?_of_pushes hpushes, hlanded⟩

end Traffic

end ImageRegistry
