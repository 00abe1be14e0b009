import ImageRegistry.Blob.Sweeper
import ImageRegistry.Proofs.Blob.Tiling

/-!
# Uploads that expire

An upload keeps the time of its last write, and a sweep goes by that time. What the time is said of
here is the *last write*: the last part that was accepted, read off the calls and their answers
(`lastWrite?`). An upload that is there was last written to by its own repository, at the very time
that it keeps (`exists_lastWrite?`), because no call but a part that is accepted brings an upload
into being or changes it (`found_of_run`). So a sweep drops the uploads that are idle by what
clients were told, as long as the clock does not go back (`get?_sweep_of_clocked`).

A sweeper is a client that sweeps at fixed times, and what it does is a part of the events of a run
(`Sweeper.run_eq_run_sweeps`). Two sweeps are one period apart, so one of them comes while an upload
is between too old and a period older than that. A sweep leaves no upload that was too old then and
has not been written to since (`fresh_of_sweep`), so none gets that old (`not_isIdle_of_sweeps`),
not even at the time of a sweep that is still to come. An upload that may not be idle at all is the
exception: written to at the time of one sweep, right after it, it is a period old at the next one.
-/

namespace ImageRegistry.Blob

variable {events : List Event} {e : Event} {id : String} {session : Session} {now maxIdle : Nat}

/-- The events come in the order of their times, and none of them after `now`. -/
structure Clocked (events : List Event) (now : Nat) : Prop where
  ordered : events.Pairwise fun earlier later ↦ earlier.time ≤ later.time
  past : ∀ e ∈ events, e.time ≤ now

/-- Before an event the clock has not gone past its time. -/
theorem Clocked.before {before after : List Event} (h : Clocked (before ++ e :: after) now) :
    Clocked before e.time where
  ordered := (List.pairwise_append.1 h.ordered).1
  past := fun x hx ↦ (List.pairwise_append.1 h.ordered).2.2 x hx e List.mem_cons_self

/-- After an event the clock has not gone back behind its time. -/
theorem Clocked.after {before after : List Event} (h : Clocked (before ++ e :: after) now) :
    ∀ x ∈ after, e.time ≤ x.time :=
  (List.pairwise_cons.1 (List.pairwise_append.1 h.ordered).2.1).1

/-! ### The last write -/

theorem write?_sweep (time maxIdle : Nat) (id : String) (reply : Reply) :
    Event.write? ⟨time, .sweep maxIdle⟩ id reply = none := rfl

namespace Store

variable {s : Store}

theorem exists_of_mem_writes {w : Write} (h : w ∈ s.writes id events) :
    ∃ e ∈ events, w.time = e.time := by
  induction events generalizing s with
  | nil => cases h
  | cons e rest ih =>
    rcases List.mem_append.1 h with h | h
    · obtain ⟨rfl, -⟩ := write?_eq_some_iff.1 (Option.mem_toList.1 h)
      exact ⟨_, List.mem_cons_self, rfl⟩
    · obtain ⟨x, hx, htime⟩ := ih h
      exact ⟨x, List.mem_cons_of_mem e hx, htime⟩

/-- The last write to the upload of an identifier among the events of a run. -/
def lastWrite? (id : String) (events : List Event) : Option Write :=
  ((∅ : Store).writes id events).getLast?

/-- Nothing has been written to the upload of an identifier for so long. -/
def isIdle (id : String) (events : List Event) (now duration : Nat) : Bool :=
  (lastWrite? id events).any fun w ↦ w.time + duration ≤ now

theorem lastWrite?_append_of_writes {later : List Event}
    (h : ((∅ : Store).run events).writes id later = []) :
    lastWrite? id (events ++ later) = lastWrite? id events := by
  rw [lastWrite?, writes_append, h, List.append_nil, lastWrite?]

theorem lastWrite?_concat_of_write {w : Write}
    (h : e.write? id (((∅ : Store).run events).take e).1 = some w) :
    lastWrite? id (events ++ [e]) = some w := by
  rw [lastWrite?, writes_concat, h, Option.toList_some, List.getLast?_concat]

/-- An upload that is there was last written to by its repository, at the time that it keeps. -/
theorem exists_lastWrite? (found : ((∅ : Store).run events).sessions.get? id = some session) :
    ∃ w, lastWrite? id events = some w ∧ w.time = session.touched ∧
      w.repository = session.repository := by
  induction events using List.reverseRecOn generalizing session with
  | nil => cases found
  | append_singleton events e ih =>
    have hturn := ((∅ : Store).run events).take_turn e id
    rw [← run_concat, found] at hturn
    generalize hbefore : ((∅ : Store).run events).sessions.get? id = before,
      hwrite : e.write? id (((∅ : Store).run events).take e).1 = write at hturn
    cases hturn with
    | begun w follows => exact ⟨w, lastWrite?_concat_of_write hwrite, rfl, rfl⟩
    | extended w old same follows => exact ⟨w, lastWrite?_concat_of_write hwrite, rfl, same⟩
    | kept =>
      have hnone : ((∅ : Store).run events).writes id [e] = [] := by simp [writes, hwrite]
      rw [lastWrite?_append_of_writes hnone]
      exact ih hbefore

theorem isIdle_eq (found : ((∅ : Store).run events).sessions.get? id = some session)
    (now duration : Nat) :
    isIdle id events now duration = decide (session.touched + duration ≤ now) := by
  obtain ⟨w, hlast, htime, -⟩ := exists_lastWrite? found
  rw [isIdle, hlast, Option.any_some, htime]

theorem touched_le (hclocked : Clocked events now)
    (found : ((∅ : Store).run events).sessions.get? id = some session) : session.touched ≤ now := by
  obtain ⟨w, hlast, htime, -⟩ := exists_lastWrite? found
  obtain ⟨e, he, hevent⟩ := exists_of_mem_writes (List.mem_of_getLast? hlast)
  exact htime ▸ hevent ▸ hclocked.past e he

/-! ### What does not keep an upload alive -/

/-- Without a write no upload comes into being, and none is changed. -/
theorem found_of_run {later : List Event} (hnone : s.writes id later = [])
    (found : (s.run later).sessions.get? id = some session) :
    s.sessions.get? id = some session := by
  induction later generalizing s with
  | nil => exact found
  | cons e rest ih =>
    obtain ⟨hfirst, hrest⟩ := List.append_eq_nil_iff.1 hnone
    exact found_of_take_of_write? (Option.toList_eq_nil_iff.1 hfirst) (ih hrest found)

/-- A call from another repository is no write to an upload that is there. -/
theorem write?_of_not_mayChange (found : s.sessions.get? id = some session)
    (h : ¬ e.call.MayChange session.repository id) : e.write? id (s.take e).1 = none := by
  rw [Option.eq_none_iff_forall_ne_some]
  intro w hwrite
  have hturn := s.take_turn e id
  rw [hwrite, found] at hturn
  generalize (s.take e).2.sessions.get? id = after at hturn
  cases hturn with
  | extended _ _ same follows =>
    obtain ⟨rfl, -⟩ := write?_eq_some_iff.1 hwrite
    exact h ⟨same, rfl⟩

/-- To ask how much of an upload is there changes nothing. -/
theorem take_of_status {repository target : String} (h : e.call = .status repository target) :
    (s.take e).2 = s := by
  have heffect := s.take_effect e
  rw [h] at heffect
  generalize (s.take e).1 = reply, (s.take e).2 = t at heffect ⊢
  cases heffect with
  | refused | told => rfl

theorem write?_of_status {repository target : String} {reply : Reply}
    (h : e.call = .status repository target) : e.write? id reply = none := by
  simp only [Event.write?, h]

/-! ### Sweeps -/

section Sweeps

variable (hclocked : Clocked events now)
include hclocked

/-- A sweep drops the uploads that are idle and leaves all others. -/
theorem get?_sweep_of_clocked (maxIdle : Nat) (id : String) :
    (((∅ : Store).run events).sweep now maxIdle).2.sessions.get? id =
      if isIdle id events now maxIdle then none
      else ((∅ : Store).run events).sessions.get? id := by
  rw [sweep, Table.get?_filter]
  cases found : ((∅ : Store).run events).sessions.get? id with
  | none => simp
  | some session =>
    have hle := touched_le hclocked found
    rw [Option.filter_some, isIdle_eq found, isFresh]
    by_cases hidle : session.touched + maxIdle ≤ now
    · rw [if_neg (by simp; omega), if_pos (by simp [hidle])]
    · rw [if_pos (by simp; omega), if_neg (by simp [hidle])]

/-- A sweep tells how many uploads were idle. -/
theorem sweep_fst_of_clocked (maxIdle : Nat) :
    (((∅ : Store).run events).sweep now maxIdle).1 =
      (((∅ : Store).run events).sessions.keys.filter fun id ↦
        isIdle id events now maxIdle).length := by
  have hget := get?_sweep_of_clocked hclocked maxIdle
  generalize (∅ : Store).run events = s at hget ⊢
  have hcontains (id : String) : (s.sweep now maxIdle).2.sessions.contains id =
      (!isIdle id events now maxIdle && s.sessions.contains id) := by
    rw [Table.contains, hget]
    cases isIdle id events now maxIdle <;> rfl
  have hkept (id : String) (hid : (s.sweep now maxIdle).2.sessions.contains id = true) :
      s.sessions.contains id = true := by
    rw [hcontains, Bool.and_eq_true] at hid
    exact hid.2
  have hdropped := Table.length_dropped hkept
  have hkeys : (s.sessions.keys.filter fun id ↦ !(s.sweep now maxIdle).2.sessions.contains id) =
      s.sessions.keys.filter fun id ↦ isIdle id events now maxIdle := by
    refine List.filter_congr fun id hid ↦ ?_
    rw [hcontains, Table.mem_keys_iff_contains.1 hid]
    simp
  rw [hkeys] at hdropped
  show s.sessions.size - (s.sweep now maxIdle).2.sessions.size = _
  omega

end Sweeps

end Store

/-! ### Sweepers -/

namespace Sweeper

/-- The sweeps of a sweeper that began at `start`, as events. -/
def sweeps (start period maxIdle duration : Nat) : List Event :=
  (ticks period duration).map fun tick ↦ ⟨start + tick, .sweep maxIdle⟩

/-- A sweeper that is alone with a store takes its sweeps one after the other. -/
theorem run_eq_run_sweeps (start period maxIdle duration : Nat) (s : Store) :
    run (start + ·) period maxIdle duration s = s.run (sweeps start period maxIdle duration) := by
  rw [run, Store.run, sweeps, List.foldl_map]
  rfl

/-- After its beginning a sweeper has swept no longer than a period ago. -/
theorem exists_mem_sweeps {start : Nat} (hstart : start < now) (period maxIdle : Nat) :
    ∃ tick, ⟨tick, .sweep maxIdle⟩ ∈ sweeps start period maxIdle (now - start) ∧
      now ≤ tick + interval period := by
  have hperiod : 0 < interval period := interval_pos period
  let count := (now - 1 - start) / interval period
  have hle : count * interval period ≤ now - 1 - start := Nat.div_mul_le_self _ _
  have hlt : now - 1 - start < count * interval period + interval period :=
    Nat.lt_div_mul_add hperiod
  refine ⟨start + count * interval period, List.mem_map.2 ⟨_, mem_ticks.2 ⟨?_, ?_⟩, rfl⟩, ?_⟩
  · omega
  · exact Nat.dvd_mul_left _ _
  · omega

end Sweeper

namespace Store

/-- An upload that is there after a sweep was not too old then, or was written to since. -/
theorem fresh_of_sweep (hclocked : Clocked events now) {tick : Nat}
    (hmem : ⟨tick, .sweep maxIdle⟩ ∈ events)
    (found : ((∅ : Store).run events).sessions.get? id = some session) :
    tick < session.touched + maxIdle ∨ tick ≤ session.touched := by
  obtain ⟨before, after, rfl⟩ := List.append_of_mem hmem
  by_contra hold
  rw [not_or, Nat.not_lt, Nat.not_le] at hold
  obtain ⟨hexpired, hearlier⟩ := hold
  let swept := (((∅ : Store).run before).take ⟨tick, .sweep maxIdle⟩).2
  -- Its last write is older than the sweep, so nothing was written to it after the sweep.
  have hnone : swept.writes id after = [] := by
    by_contra hsome
    obtain ⟨w, hlast, htime, -⟩ := exists_lastWrite? found
    rw [lastWrite?, writes_append, writes, write?_sweep, Option.toList_none, List.nil_append,
      List.getLast?_append_of_ne_nil _ hsome] at hlast
    obtain ⟨e, he, hevent⟩ := exists_of_mem_writes (List.mem_of_getLast? hlast)
    have hlater := hclocked.after e he
    dsimp only at hlater
    omega
  rw [run_append, run_cons] at found
  have hswept : swept.sessions.get? id = some session := found_of_run hnone found
  have hget := get?_sweep_of_clocked hclocked.before maxIdle id
  rw [show (((∅ : Store).run before).sweep tick maxIdle).2 = swept from rfl, hswept] at hget
  split at hget
  · cases hget
  · next hfresh =>
    rw [isIdle_eq hget.symm, decide_eq_true_eq] at hfresh
    exact hfresh hexpired

/-- Where a sweeper is at work, no upload that is there has been idle for a period longer than it
may be. If it may not be idle at all, the sweep that comes now counts as well. -/
theorem not_isIdle_of_sweeps (hclocked : Clocked events now) {start period : Nat}
    (hfirst : ⟨start, .sweep maxIdle⟩ ∈ events)
    (hsweeps : Sweeper.sweeps start period maxIdle (now - start) ⊆ events)
    (hnow : 0 < maxIdle ∨ Sweeper.sweeps start period maxIdle (now + 1 - start) ⊆ events)
    (found : ((∅ : Store).run events).sessions.get? id = some session) :
    isIdle id events now (maxIdle + Sweeper.interval period) = false := by
  rw [isIdle_eq found, decide_eq_false_iff_not]
  intro hidle
  have hperiod := Sweeper.interval_pos period
  have hstart : start ≤ now := hclocked.past _ hfirst
  rcases hnow with hpositive | hnow
  · obtain ⟨tick, hmem, hlate⟩ : ∃ tick, ⟨tick, .sweep maxIdle⟩ ∈ events ∧
        now ≤ tick + Sweeper.interval period := by
      rcases Nat.eq_or_lt_of_le hstart with rfl | hlt
      · exact ⟨start, hfirst, Nat.le_add_right _ _⟩
      · obtain ⟨tick, hmem, hlate⟩ := Sweeper.exists_mem_sweeps hlt period maxIdle
        exact ⟨tick, hsweeps hmem, hlate⟩
    have hfresh := fresh_of_sweep hclocked hmem found
    omega
  · obtain ⟨tick, hmem, hlate⟩ :=
      Sweeper.exists_mem_sweeps (Nat.lt_succ_of_le hstart) period maxIdle
    have hfresh := fresh_of_sweep hclocked (hnow hmem) found
    omega

/-- Uploads expire, and only their writes keep them alive. Whatever has happened to a store, if the
clock has not gone back: a sweep drops the uploads whose last part was accepted `maxIdle` ago or
longer, tells how many they are, and leaves all other uploads, the blobs and the layers as they are.
An upload stays as it is, with the time of its last write, when it is asked for, when a call is
refused, and when a call comes from another repository; and if no part of it is accepted any more, a
sweep that comes late enough after the last one drops it, whatever happens in between. A sweeper
sweeps when it begins and after each period, which is a millisecond at least. Where one is at work,
has begun and has swept whenever it was to before now, no upload has been idle for `maxIdle` and one
period more; if `maxIdle` is nothing, it must have swept now if it is to. -/
theorem expires_of_run (hclocked : Clocked events now) :
    let s := (∅ : Store).run events
    (∀ maxIdle,
      let expired := s.sessions.keys.filter fun id ↦ isIdle id events now maxIdle
      let t := (s.take ⟨now, .sweep maxIdle⟩).2
      (s.take ⟨now, .sweep maxIdle⟩).1 = .dropped expired.length ∧
        (∀ id ∈ expired, t.sessions.get? id = none) ∧
        (∀ id, id ∉ expired → t.sessions.get? id = s.sessions.get? id) ∧
        t.content = s.content ∧ t.layers = s.layers) ∧
    (∀ id session e, s.sessions.get? id = some session →
      ((∃ repository target, e.call = .status repository target) ∨
        (∃ error, (s.take e).1 = .refused error) ∨ ¬ e.call.MayChange session.repository id) →
      (s.take e).2.sessions.get? id = some session ∧ e.write? id (s.take e).1 = none) ∧
    (∀ id later t maxIdle, Clocked (events ++ later) t → s.writes id later = [] →
      isIdle id events t maxIdle = true →
        ((s.run later).take ⟨t, .sweep maxIdle⟩).2.sessions.get? id = none) ∧
    (∀ start period maxIdle duration (t : Store),
      Sweeper.run (start + ·) period maxIdle duration t =
        t.run (Sweeper.sweeps start period maxIdle duration)) ∧
    ∀ start period maxIdle, ⟨start, .sweep maxIdle⟩ ∈ events →
      Sweeper.sweeps start period maxIdle (now - start) ⊆ events →
      0 < maxIdle ∨ Sweeper.sweeps start period maxIdle (now + 1 - start) ⊆ events →
      ∀ id ∈ s.sessions.keys,
        isIdle id events now (maxIdle + max period Text.millisecond) = false := by
  intro s
  refine ⟨fun maxIdle ↦ ⟨?_, fun id hid ↦ ?_, fun id hid ↦ ?_, rfl, rfl⟩,
    fun id session e found hcall ↦ ?_, fun id later t maxIdle hlater hnone hidle ↦ ?_,
    Sweeper.run_eq_run_sweeps, fun start period maxIdle hfirst hsweeps hnow id hid ↦ ?_⟩
  · exact congrArg Reply.dropped (sweep_fst_of_clocked hclocked maxIdle)
  · exact (get?_sweep_of_clocked hclocked maxIdle id).trans (if_pos (List.mem_filter.1 hid).2)
  · refine (get?_sweep_of_clocked hclocked maxIdle id).trans ?_
    by_cases hkey : id ∈ s.sessions.keys
    · exact if_neg fun hidle ↦ hid (List.mem_filter.2 ⟨hkey, hidle⟩)
    · have hnone : s.sessions.get? id = none := (s.sessions.get?_eq_none_iff id).2 hkey
      rw [hnone]
      exact ite_self none
  · rcases hcall with ⟨repository, target, hstatus⟩ | ⟨error, hrefused⟩ | hforeign
    · exact ⟨(congrArg (·.sessions.get? id) (take_of_status hstatus)).trans found,
        write?_of_status hstatus⟩
    · exact ⟨(congrArg (·.sessions.get? id) (take_of_refused hrefused)).trans found,
        hrefused ▸ write?_refused e id error⟩
    · exact ⟨take_of_not_mayChange found hforeign, write?_of_not_mayChange found hforeign⟩
  · have hget := get?_sweep_of_clocked hlater maxIdle id
    rwa [isIdle, lastWrite?_append_of_writes hnone, ← isIdle, hidle, if_pos rfl, run_append] at hget
  · obtain ⟨session, found⟩ :=
      Table.contains_eq_true_iff.1 (Table.mem_keys_iff_contains.1 hid)
    exact not_isIdle_of_sweeps hclocked hfirst hsweeps hnow found

/-- Two uploads under a sweeper that drops what was idle for half a millisecond. The second one was
asked for, and a part of it was refused, but it was written to at the beginning only; the first one
is idle for half a millisecond when it is swept by hand. -/
theorem expires_of_run_two_uploads :
    let events : List Event := [
      ⟨0, .append "library" "u" none "he".toUTF8⟩,
      ⟨0, .sweep 500000⟩,
      ⟨100000, .append "other" "v" none "x".toUTF8⟩,
      ⟨700000, .append "library" "u" (some (2, 3)) "ll".toUTF8⟩,
      ⟨900000, .status "other" "v"⟩,
      ⟨950000, .append "other" "v" none "y".toUTF8⟩,
      ⟨1000000, .sweep 500000⟩]
    let s := (∅ : Store).run events
    let asked : Event := ⟨1150000, .status "library" "u"⟩
    s.sessions.keys = ["u"] ∧
      (s.take ⟨1200000, .sweep 500000⟩).1 = .dropped 1 ∧
      (s.take ⟨1200000, .sweep 500001⟩).1 = .dropped 0 ∧
      (s.take asked).2.sessions.get? "u" = s.sessions.get? "u" ∧
      ((s.take asked).2.take ⟨1200000, .sweep 500000⟩).2.sessions.get? "u" = none ∧
      isIdle "u" events 1200000 (500000 + Text.millisecond) = false := by
  intro events s asked
  have hkeys : s.sessions.keys = ["u"] := by decide +kernel
  have found : s.sessions.get? "u" = some ⟨"library", "hell".toUTF8, 700000⟩ := by decide +kernel
  obtain ⟨hsweep, hstays, hlater, -, hsweeper⟩ :=
    @expires_of_run events 1200000 ⟨by decide +kernel, by decide +kernel⟩
  obtain ⟨hasked, hnone⟩ := hstays "u" _ asked found (Or.inl ⟨_, _, rfl⟩)
  refine ⟨hkeys, (hsweep 500000).1.trans (by decide +kernel),
    (hsweep 500001).1.trans (by decide +kernel), hasked.trans found.symm, ?_, ?_⟩
  · refine hlater "u" [asked] 1200000 500000 ⟨by decide +kernel, by decide +kernel⟩ ?_
      (by decide +kernel)
    rw [writes, hnone]
    rfl
  · exact hsweeper 0 0 500000 (by decide +kernel) (by decide +kernel) (Or.inl (by decide)) "u"
      (by rw [hkeys]; decide)

/-- Without `maxIdle` an upload can be a period old when the next sweep is still to come. -/
example : isIdle "u" [⟨0, .sweep 0⟩, ⟨0, .append "library" "u" none "he".toUTF8⟩] 1000000
    (0 + Text.millisecond) = true := by decide +kernel

end Store

end ImageRegistry.Blob
