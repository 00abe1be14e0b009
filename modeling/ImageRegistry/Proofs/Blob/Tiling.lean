import ImageRegistry.Proofs.Blob.Run
import Mathlib.Data.List.Induction

/-!
# Uploads tile their content

Many clients may append to one upload at the same time, and the store keeps nothing but its bytes.
What it cannot have lost or doubled is said of the *writes*: the parts that were accepted since the
upload last came into being (`writes`, over a `Life`). They are read off the calls and the answers
alone, so that a client could keep the list as well.

For one identifier every call does one of four things (`Turn`): it begins an upload, it goes on with
one, it takes one away, or it leaves everything as it is. `take_turn` reads that off the effects of
calls once, and `exists_life` follows the turns of a run from its last beginning. The ranges then
cannot meet, because each begins where all bytes before it end (`disjoint_of_tiled`), and no later
part can begin where an earlier one did.
-/

namespace ImageRegistry.Blob

/-! ### Writes -/

/-- A part that was accepted: when, from which repository, with which range and bytes, and how many
bytes were then said to be there. -/
structure Write where
  time : Nat
  repository : String
  range : Option Range
  chunk : ByteArray
  length : Nat

/-- The bytes of some writes, one after the other. -/
def written (writes : List Write) : ByteArray := Digest.join (writes.map Write.chunk)

/-- The write comes after so many bytes: it was answered with the number of bytes after it, and its
range, if it has one, begins where the bytes before it end and ends with its own. -/
structure Write.Follows (w : Write) (offset : Nat) : Prop where
  length : w.length = offset + w.chunk.size
  covers : ∀ r ∈ w.range, Covers r offset w.chunk

/-- The write was accepted when so many bytes were there: it was answered with the number of bytes
after it, and its range, if it has one, fits it. -/
structure Write.Joins (w : Write) (offset : Nat) : Prop where
  length : w.length = offset + w.chunk.size
  fits : ∀ r ∈ w.range, Fits r offset w.chunk

theorem Write.Joins.follows {w : Write} {offset : Nat} (h : w.Joins offset)
    (hrange : w.range ≠ some greatest) : w.Follows offset where
  length := h.length
  covers r hr := (h.fits r hr).covers fun hgreatest ↦ hrange (hgreatest ▸ hr)

/-- Each write comes after the bytes of those before it. -/
def Tiled (writes : List Write) : Prop :=
  ∀ before w after, writes = before ++ w :: after → w.Follows (written before).size

theorem size_written_append (before after : List Write) :
    (written (before ++ after)).size = (written before).size + (written after).size := by
  rw [written, List.map_append, Digest.join_append, ByteArray.size_append]
  rfl

theorem written_singleton (w : Write) : written [w] = w.chunk := by
  rw [written, List.map_singleton, Digest.join_cons, Digest.join_nil, ByteArray.append_empty]

theorem written_concat (writes : List Write) (w : Write) :
    written (writes ++ [w]) = written writes ++ w.chunk := by
  rw [written, List.map_append, Digest.join_append]
  exact congrArg _ (written_singleton w)

theorem tiled_nil : Tiled [] := by
  intro before w after h
  exact absurd h (by simp)

/-- One more write keeps the tiling if it comes after all bytes that are there. -/
theorem tiled_concat {writes : List Write} {w : Write} (h : Tiled writes)
    (hw : w.Follows (written writes).size) : Tiled (writes ++ [w]) := by
  intro before x after heq
  -- The write that is looked at is the new one, or it stands among the old ones.
  rcases List.eq_nil_or_concat after with rfl | ⟨rest, last, rfl⟩
  · obtain ⟨rfl, rfl⟩ : writes = before ∧ w = x := by simpa using heq
    exact hw
  · have hinit : writes ++ [w] = (before ++ x :: rest) ++ [last] := by simpa using heq
    obtain ⟨rfl, -⟩ := List.append_inj' hinit rfl
    exact h before x rest rfl

theorem tiled_of_tiled_append {before after : List Write} (h : Tiled (before ++ after)) :
    Tiled before := by
  intro early w late heq
  exact h early w (late ++ after) (by rw [heq, List.append_assoc, List.cons_append])

/-- A later range lies wholly after an earlier one. -/
theorem disjoint_of_tiled {writes : List Write} (h : Tiled writes) :
    (writes.filterMap Write.range).Pairwise fun earlier later ↦ earlier.2 < later.1 := by
  induction writes using List.reverseRecOn with
  | nil => exact List.Pairwise.nil
  | append_singleton writes w ih =>
    rw [List.filterMap_append, List.pairwise_append]
    refine ⟨ih (tiled_of_tiled_append h), List.pairwise_filterMap.2 (List.pairwise_singleton _ w),
      ?_⟩
    intro earlier hearlier later hlater
    obtain ⟨x, hx, hrange⟩ := List.mem_filterMap.1 hearlier
    obtain ⟨y, hy, hrange'⟩ := List.mem_filterMap.1 hlater
    obtain rfl := List.mem_singleton.1 hy
    -- The earlier range ends within the bytes that come before the later one.
    obtain ⟨before, between, rfl⟩ := List.append_of_mem hx
    have hearly := (h before x (between ++ [y]) (by simp)).covers earlier hrange
    have hlate := (h (before ++ x :: between) y [] (by simp)).covers later hrange'
    have hsize := size_written_append before (x :: between)
    have hchunk := size_written_append [x] between
    rw [written_singleton, List.singleton_append] at hchunk
    have hstart := hlate.start
    have hlast := hearly.last
    omega

/-- No two ranges begin at the same place. -/
theorem nodup_starts_of_tiled {writes : List Write} (h : Tiled writes) :
    ((writes.filterMap Write.range).map Prod.fst).Nodup := by
  have hordered : ∀ r ∈ writes.filterMap Write.range, r.1 ≤ r.2 := by
    intro r hr
    obtain ⟨w, hw, hrange⟩ := List.mem_filterMap.1 hr
    obtain ⟨before, after, heq⟩ := List.append_of_mem hw
    exact ((h before w after heq).covers r hrange).ordered
  refine List.pairwise_map.2 ((disjoint_of_tiled h).imp_of_mem fun {earlier later} hmem _ hlt ↦ ?_)
  have hle := hordered earlier hmem
  omega

/-! ### The turns of one upload -/

/-- The write to the upload of an identifier that an event turns out to be, when it is answered
so. -/
def Event.write? (e : Event) (id : String) (reply : Reply) : Option Write :=
  match e.call, reply with
  | .append repository target range chunk, .holds length =>
    if target = id then some ⟨e.time, repository, range, chunk, length⟩ else none
  | _, _ => none

@[simp] theorem write?_append (now : Nat) (repository target id : String) (range : Option Range)
    (chunk : ByteArray) (length : Nat) :
    Event.write? ⟨now, .append repository target range chunk⟩ id (.holds length) =
      if target = id then some ⟨now, repository, range, chunk, length⟩ else none := rfl

/-- A write is an append that was answered with the number of bytes that are there. -/
theorem write?_eq_some_iff {e : Event} {id : String} {reply : Reply} {w : Write} :
    e.write? id reply = some w ↔
      e = ⟨w.time, .append w.repository id w.range w.chunk⟩ ∧ reply = .holds w.length := by
  obtain ⟨time, call⟩ := e
  cases call with
  | append repository target range chunk =>
    cases reply with
    | holds length =>
      obtain ⟨time', repository', range', chunk', length'⟩ := w
      rw [write?_append]
      split
      · next htarget =>
        subst htarget
        simp [and_assoc]
      · next htarget => simp [htarget]
    | stored | cancelled | dropped | refused => simp [Event.write?]
  | commit | finalize | status | cancel | remove | sweep => simp [Event.write?]

/-- A call that is refused writes nothing. -/
@[simp] theorem write?_refused (e : Event) (id : String) (error : RegistryError) :
    e.write? id (.refused error) = none := by
  obtain ⟨now, call⟩ := e
  cases call <;> rfl

/-- What a call can make of the upload of an identifier, and which write it is then. -/
inductive Turn : Option Session → Option Write → Option Session → Prop where
  | begun (w : Write) (joins : w.Joins 0) :
    Turn none (some w) (some ⟨w.repository, w.chunk, w.time⟩)
  | extended (w : Write) (session : Session) (same : w.repository = session.repository)
      (joins : w.Joins session.buffer.size) :
    Turn (some session) (some w) (some ⟨session.repository, session.buffer ++ w.chunk, w.time⟩)
  | kept (found : Option Session) : Turn found none found
  | ended (session : Session) : Turn (some session) none none

namespace Store

theorem turn_dropSession (s : Store) (id other : String) :
    Turn (s.sessions.get? id) none ((s.dropSession other).sessions.get? id) := by
  rcases eq_or_ne other id with rfl | h
  · rw [get?_dropSession_self]
    cases s.sessions.get? other with
    | none => exact .kept none
    | some session => exact .ended session
  · rw [get?_dropSession_of_ne s h]
    exact .kept _

/-- Every call takes one of the four turns. -/
theorem take_turn (s : Store) (e : Event) (id : String) :
    Turn (s.sessions.get? id) (e.write? id (s.take e).1) ((s.take e).2.sessions.get? id) := by
  have heffect := s.take_effect e
  obtain ⟨now, call⟩ := e
  generalize (s.take ⟨now, call⟩).1 = reply, (s.take ⟨now, call⟩).2 = t at heffect ⊢
  cases heffect with
  | refused call error =>
    rw [write?_refused]
    exact .kept _
  | committed repository data => exact .kept _
  | begun repository target range chunk absent fits =>
    -- Only a call on this very upload takes a turn of it.
    rcases eq_or_ne target id with rfl | h
    · rw [absent, get?_putSession_self, write?_append, if_pos rfl]
      exact .begun ⟨now, repository, range, chunk, chunk.size⟩ ⟨(Nat.zero_add _).symm, fits⟩
    · rw [get?_putSession_of_ne s _ h, write?_append, if_neg h]
      exact .kept _
  | extended target session r chunk found fits =>
    rcases eq_or_ne target id with rfl | h
    · rw [found, get?_putSession_self, write?_append, if_pos rfl]
      refine .extended ⟨now, session.repository, some r, chunk, _⟩ session rfl
        ⟨ByteArray.size_append, fun q hq ↦ ?_⟩
      rw [Option.mem_some_iff] at hq
      exact hq ▸ fits
    · rw [get?_putSession_of_ne s _ h, write?_append, if_neg h]
      exact .kept _
  | finalized repository target bytes trailing found => exact s.turn_dropSession id target
  | told target session found => exact .kept _
  | cancelled target session found => exact s.turn_dropSession id target
  | removed repository =>
    rw [sessions_remove]
    exact .kept _
  | swept maxIdle =>
    show Turn _ none ((s.sessions.filter _).get? id)
    rw [Table.get?_filter]
    cases s.sessions.get? id with
    | none => exact .kept none
    | some session =>
      rw [Option.filter_some]
      split
      · exact .kept _
      · exact .ended session

/-- An event that is no write to an upload does not bring it into being and does not change it. -/
theorem found_of_take_of_write? {s : Store} {e : Event} {id : String} {session : Session}
    (hnone : e.write? id (s.take e).1 = none)
    (found : (s.take e).2.sessions.get? id = some session) :
    s.sessions.get? id = some session := by
  have hturn := s.take_turn e id
  rw [hnone, found] at hturn
  generalize s.sessions.get? id = before at hturn
  cases hturn with
  | kept => rfl

/-! ### The life of an upload -/

/-- The writes to the upload of an identifier among some events. -/
def writes (id : String) (s : Store) : List Event → List Write
  | [] => []
  | e :: rest => (e.write? id (s.take e).1).toList ++ (s.take e).2.writes id rest

theorem writes_append (id : String) (s : Store) (before after : List Event) :
    s.writes id (before ++ after) = s.writes id before ++ (s.run before).writes id after := by
  induction before generalizing s with
  | nil => rfl
  | cons e rest ih => rw [List.cons_append, writes, ih, writes, run_cons, List.append_assoc]

end Store

/-- The upload of an identifier came into being at the first of the events `during`, and has been
there ever since: it was not there after the events `before`, and was there after each later one. -/
structure Life (id : String) (before during : List Event) : Prop where
  absent : ((∅ : Store).run before).sessions.get? id = none
  alive : ∀ early late, during = early ++ late → early ≠ [] →
    ((∅ : Store).run (before ++ early)).sessions.contains id = true

/-- An upload is what was written to it: its bytes are those of the writes, in their order, all of
the writes come from its repository, and they tile it. -/
structure Recorded (writes : List Write) (session : Session) : Prop where
  begun : writes ≠ []
  buffer : session.buffer = written writes
  repository : ∀ w ∈ writes, w.repository = session.repository
  tiled : Tiled writes

theorem recorded_begun {w : Write} (follows : w.Follows 0) :
    Recorded [w] ⟨w.repository, w.chunk, w.time⟩ where
  begun := by simp
  buffer := (written_singleton w).symm
  repository := by simp
  tiled := tiled_concat tiled_nil follows

theorem recorded_extended {writes : List Write} {session : Session} {w : Write}
    (h : Recorded writes session) (same : w.repository = session.repository)
    (follows : w.Follows session.buffer.size) :
    Recorded (writes ++ [w]) ⟨session.repository, session.buffer ++ w.chunk, w.time⟩ where
  begun := by simp
  buffer := by rw [written_concat, h.buffer]
  repository := by
    intro x hx
    rcases List.mem_append.1 hx with hx | hx
    · exact h.repository x hx
    · exact List.mem_singleton.1 hx ▸ same
  tiled := tiled_concat h.tiled (h.buffer ▸ follows)

/-- A call that does not bring a part with the greatest range, which is more than can be counted. -/
def Call.IsCounted : Call → Prop
  | .append _ _ range _ => range ≠ some greatest
  | _ => True

namespace Store

theorem run_concat (s : Store) (events : List Event) (e : Event) :
    s.run (events ++ [e]) = ((s.run events).take e).2 := by
  rw [run_append, run_cons, run_nil]

theorem writes_concat (id : String) (s : Store) (events : List Event) (e : Event) :
    s.writes id (events ++ [e]) =
      s.writes id events ++ (e.write? id ((s.run events).take e).1).toList := by
  rw [writes_append, writes, writes, List.append_nil]

/-- An upload that is there after some events has a life among them, and is what was written to it
in that life. The induction is on the events from the last one backwards, and the last event either
begins the life or makes it longer. -/
theorem exists_life {events : List Event} (hcounted : ∀ e ∈ events, e.call.IsCounted) {id : String}
    {session : Session}
    (h : ((∅ : Store).run events).sessions.get? id = some session) :
    ∃ before during, events = before ++ during ∧ Life id before during ∧
      Recorded (((∅ : Store).run before).writes id during) session := by
  induction events using List.reverseRecOn generalizing session with
  | nil => cases h
  | append_singleton events e ih =>
    have hthere : ((∅ : Store).run (events ++ [e])).sessions.contains id = true :=
      Table.contains_eq_true_iff.2 ⟨session, h⟩
    have hturn := ((∅ : Store).run events).take_turn e id
    rw [← run_concat, h] at hturn
    -- An upload that was there already has a life, and the event is one more of it.
    have hlonger {before during : List Event} (hsplit : events = before ++ during)
        (hlife : Life id before during) : Life id before (during ++ [e]) := by
      refine ⟨hlife.absent, fun early late heq hne ↦ ?_⟩
      rcases List.eq_nil_or_concat late with rfl | ⟨rest, last, rfl⟩
      · rw [List.append_nil] at heq
        rw [← heq, ← List.append_assoc, ← hsplit]
        exact hthere
      · rw [List.concat_eq_append, ← List.append_assoc] at heq
        exact hlife.alive early rest (List.append_inj' heq rfl).1 hne
    generalize hfound : ((∅ : Store).run events).sessions.get? id = found,
      hwrite : e.write? id (((∅ : Store).run events).take e).1 = write at hturn
    have hrange (w : Write) (hw : write = some w) : w.range ≠ some greatest := by
      obtain ⟨rfl, -⟩ := write?_eq_some_iff.1 (hwrite.trans hw)
      exact hcounted _ (List.mem_append_right events List.mem_cons_self)
    have hbefore : ∀ e ∈ events, e.call.IsCounted := fun e he ↦
      hcounted e (List.mem_append_left _ he)
    cases hturn with
    | begun w joins =>
      -- Nothing was there before, so the life begins here.
      refine ⟨events, [e], rfl, ⟨hfound, fun early late heq hne ↦ ?_⟩, ?_⟩
      · cases early with
        | nil => exact absurd rfl hne
        | cons first rest =>
          obtain ⟨rfl, rfl, -⟩ : e = first ∧ rest = [] ∧ late = [] := by simpa using heq
          exact hthere
      · have hwrites := writes_concat id ((∅ : Store).run events) [] e
        rw [List.nil_append, run_nil, hwrite] at hwrites
        rw [hwrites]
        exact recorded_begun (joins.follows (hrange w rfl))
    | extended w old same joins =>
      obtain ⟨before, during, hsplit, hlife, hrecorded⟩ := ih hbefore hfound
      refine ⟨before, during ++ [e], by rw [hsplit, List.append_assoc], hlonger hsplit hlife, ?_⟩
      rw [writes_concat, ← run_append, ← hsplit, hwrite]
      exact recorded_extended hrecorded same (joins.follows (hrange w rfl))
    | kept =>
      obtain ⟨before, during, hsplit, hlife, hrecorded⟩ := ih hbefore hfound
      refine ⟨before, during ++ [e], by rw [hsplit, List.append_assoc], hlonger hsplit hlife, ?_⟩
      rw [writes_concat, ← run_append, ← hsplit, hwrite, Option.toList_none, List.append_nil]
      exact hrecorded

end Store

/-! ### Other calls -/

/-- Whether a call can change the upload of an identifier, which belongs to a repository: it names
both of them, or it is a sweep. -/
def Call.MayChange (repository id : String) : Call → Prop
  | .append other target _ _ | .finalize other target _ _ | .status other target
  | .cancel other target => other = repository ∧ target = id
  | .sweep _ => True
  | .commit .. | .remove _ => False

namespace Store

/-- A call on another upload, or from another repository, leaves an upload as it is. -/
theorem take_of_not_mayChange {s : Store} {e : Event} {id : String} {session : Session}
    (found : s.sessions.get? id = some session) (h : ¬ e.call.MayChange session.repository id) :
    (s.take e).2.sessions.get? id = some session := by
  have heffect := s.take_effect e
  -- A call that finds an upload under its own repository has found another one.
  have hother {target : String} {old : Session} (hold : s.sessions.get? target = some old)
      (hcall : ¬ (old.repository = session.repository ∧ target = id)) : target ≠ id := by
    rintro rfl
    rw [found] at hold
    cases hold
    exact hcall ⟨rfl, rfl⟩
  generalize e.call = call, (s.take e).1 = reply, (s.take e).2 = t at heffect h ⊢
  cases heffect with
  | refused => exact found
  | committed => exact found
  | begun repository target range chunk absent fits =>
    have hne : target ≠ id := by
      rintro rfl
      rw [found] at absent
      cases absent
    rw [get?_putSession_of_ne s _ hne, found]
  | extended target old r chunk hold fits =>
    rw [get?_putSession_of_ne s _ (hother hold h), found]
  | finalized repository target bytes trailing hbuffered =>
    have hne : target ≠ id := by
      rcases buffered_eq_ok_iff.1 hbuffered with ⟨hnone, -⟩ | ⟨old, hold, rfl, -⟩
      · rintro rfl
        rw [found] at hnone
        cases hnone
      · exact hother hold h
    exact (get?_dropSession_of_ne s hne).trans found
  | told => exact found
  | cancelled target old hold =>
    rw [get?_dropSession_of_ne s (hother hold h), found]
  | removed repository => rw [sessions_remove, found]
  | swept => exact absurd trivial h

/-! ### Any interleaving -/

/-- In whatever order the calls of all clients come, each upload that is there is what was written
to it since it last came into being, unless a part came with the greatest range: its bytes are those
of the accepted parts in their order, all of them from its repository; each part was answered with
the number of bytes after it, and its range lies over exactly these bytes; ranges do not meet, and
no two of them begin at one place. A call changes an upload only if it names it and its repository,
or is a sweep, and a call that is refused changes nothing in the store. -/
theorem uploads_tile_of_run (events : List Event) :
    let s := (∅ : Store).run events
    ((∀ e ∈ events, e.call.IsCounted) → ∀ id session, s.sessions.get? id = some session →
      ∃ before during, events = before ++ during ∧ Life id before during ∧
        let writes := ((∅ : Store).run before).writes id during
        Recorded writes session ∧
          (writes.filterMap Write.range).Pairwise (fun earlier later ↦ earlier.2 < later.1) ∧
          ((writes.filterMap Write.range).map Prod.fst).Nodup) ∧
    (∀ id session e, s.sessions.get? id = some session →
      ¬ e.call.MayChange session.repository id →
        (s.take e).2.sessions.get? id = some session) ∧
    ∀ e error, (s.take e).1 = .refused error → (s.take e).2 = s := by
  intro s
  refine ⟨fun hcounted id session found ↦ ?_,
    fun id session e found h ↦ take_of_not_mayChange found h, fun e error h ↦ take_of_refused h⟩
  obtain ⟨before, during, hsplit, hlife, hrecorded⟩ := exists_life hcounted found
  exact ⟨before, during, hsplit, hlife, hrecorded, disjoint_of_tiled hrecorded.tiled,
    nodup_starts_of_tiled hrecorded.tiled⟩

/-- Two clients claim the same place of an upload after another one of that identifier was given up,
and a third one writes to it from elsewhere. -/
theorem uploads_tile_of_run_two_clients :
    let events : List Event := [
      ⟨0, .append "other" "u" none "old".toUTF8⟩,
      ⟨1, .cancel "other" "u"⟩,
      ⟨2, .append "library" "u" none "he".toUTF8⟩,
      ⟨3, .append "library" "u" (some (2, 4)) "llo".toUTF8⟩,
      ⟨4, .append "library" "u" (some (2, 3)) "xy".toUTF8⟩,
      ⟨5, .append "other" "u" (some (5, 5)) "!".toUTF8⟩]
    let session : Session := ⟨"library", "hello".toUTF8, 3⟩
    ((∅ : Store).run events).sessions.get? "u" = some session ∧
      (∀ e ∈ events, e.call.IsCounted) ∧
      ∃ before during, events = before ++ during ∧ Life "u" before during ∧
        Recorded (((∅ : Store).run before).writes "u" during) session := by
  intro events session
  have found : ((∅ : Store).run events).sessions.get? "u" = some session := by decide +kernel
  have hcounted : ∀ e ∈ events, e.call.IsCounted := by
    simp [events, Call.IsCounted, greatest]
  obtain ⟨before, during, hsplit, hlife, hrecorded, -⟩ :=
    (uploads_tile_of_run events).1 hcounted "u" session found
  exact ⟨found, hcounted, before, during, hsplit, hlife, hrecorded⟩

end Store

end ImageRegistry.Blob
