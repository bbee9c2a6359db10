import Tidemark.Proofs.Time.Instants
import Tidemark.Rehearsal.Stage

/-!
# What a wait keeps

While the lead waits, tasks are taken from the agenda and run, the clock moves when none is ready, and nothing
else happens. So a property that every task keeps when it is taken, and that the clock keeps, holds at the end
of a wait if it holds at its start: `World.Lasting.waitFor`, and with it `World.Lasting.sleep`. It does so too if
it comes to hold on the way (`World.Lasting.of_mem_trail`), where the `World.trail` of a wait is the list of the
worlds that it passes through. What does not depend on the agenda at all is `World.Kept`, which is lasting as
soon as the tasks keep it.

What an agenda has yet to run are its `tasks`. The clock changes none of them, whether ready or asleep. On a
stage the same goes for the waits of a call, `Stage.Lasting.holdBack` and `Stage.Lasting.flushed`.
-/

namespace Tidemark.Rehearsal

namespace Agenda

variable {τ : Type} {a a' : Agenda τ}

/-- What is yet to run, be it ready or asleep. -/
def tasks (a : Agenda τ) : List τ :=
  a.ready ++ a.asleep.map Prod.snd

/-- The first ready task is what is taken. -/
theorem eq_of_pop? {t : τ} (h : a.pop? = some (t, a')) : a = { a' with ready := t :: a'.ready } := by
  obtain ⟨now, ready, asleep⟩ := a
  cases ready with
  | nil => exact absurd h (by simp [pop?])
  | cons t₀ rest =>
    obtain ⟨rfl, rfl⟩ := Prod.mk.inj (Option.some.inj h)
    rfl

/-- The task that is taken and those that are left are what was to run. -/
theorem tasks_of_pop? {t : τ} (h : a.pop? = some (t, a')) : a.tasks = t :: a'.tasks := by
  rw [eq_of_pop? h]
  rfl

theorem tasks_wake (a : Agenda τ) (t : τ) : (a.wake t).tasks.Perm (t :: a.tasks) := by
  rw [tasks, wake, List.append_assoc, List.singleton_append]
  exact List.perm_middle

theorem map_snd_insertSleeper (due : Instant) (t : τ) (l : List (Instant × τ)) :
    ((insertSleeper due t l).map Prod.snd).Perm (t :: l.map Prod.snd) := by
  induction l with
  | nil => exact .refl _
  | cons x rest ih =>
    rw [insertSleeper]
    split
    · exact .refl _
    · exact (ih.cons x.2).trans (.swap _ _ _)

theorem tasks_sleepUntil (a : Agenda τ) (due : Instant) (t : τ) :
    (a.sleepUntil due t).tasks.Perm (t :: a.tasks) :=
  ((map_snd_insertSleeper due t a.asleep).append_left a.ready).trans List.perm_middle

@[simp] theorem tasks_moveTo (a : Agenda τ) (now : Instant) : (a.moveTo now).tasks = a.tasks := by
  rw [tasks, moveTo, List.append_assoc, ← List.map_append, List.takeWhile_append_dropWhile, tasks]

end Agenda

namespace World

variable {σ τ : Type}

/-- A property of a world that tasks keep when they are taken from the agenda, and that the clock keeps when no
task is ready. -/
structure Lasting (perform : τ → World σ τ → World σ τ) (P : World σ τ → Prop) : Prop where
  task : ∀ {w : World σ τ} {task : τ} {agenda : Agenda τ}, w.agenda.pop? = some (task, agenda) → P w →
    P (perform task { w with agenda })
  clock : ∀ {w : World σ τ} (now : Instant), w.agenda.ready = [] → P w →
    P { w with agenda := w.agenda.moveTo now }

namespace Lasting

variable {perform : τ → World σ τ → World σ τ} {P : World σ τ → Prop} {w : World σ τ}

/-- What holds before ready tasks run holds after them. -/
theorem runReady (hl : Lasting perform P) (n : Nat) (h : P w) : P (runReady perform n w) := by
  induction n generalizing w with
  | zero => exact h
  | succ n ih =>
    rw [World.runReady]
    split
    · exact h
    · rename_i task agenda hpop
      exact ih (hl.task hpop h)

/-- What holds before a wait of some rounds holds after it. -/
theorem waitRounds (hl : Lasting perform P) (holds : World σ τ → Bool) (limit : Instant) (n : Nat)
    (h : P w) : P (waitRounds perform holds limit n w).2 := by
  induction n generalizing w with
  | zero => exact h
  | succ n ih =>
    let w' := World.runReady perform burst w
    have hburst : P w' := hl.runReady burst h
    rw [World.waitRounds]
    dsimp only
    split
    · exact hburst
    · split
      · exact ih hburst
      · rename_i hready
        have hready : w'.agenda.ready = [] := by simpa using hready
        -- the clock moves, whether the wait goes on after that or not
        have hmoved : ∀ next, P (if next < limit then World.waitRounds perform holds limit n
              { w' with agenda := w'.agenda.moveTo next }
            else (holds { w' with agenda := w'.agenda.moveTo next },
              { w' with agenda := w'.agenda.moveTo next })).2 := by
          intro next
          have hclock := hl.clock next hready hburst
          split
          · exact ih hclock
          · exact hclock
        exact hmoved _

/-- What holds before a wait holds after it. -/
theorem waitFor (hl : Lasting perform P) (holds : World σ τ → Bool) (limit : Instant) (h : P w) :
    P (w.waitFor perform holds limit).2 := by
  rw [World.waitFor]
  split
  · exact h
  · exact hl.waitRounds holds limit rounds h

/-- What holds before the lead sleeps holds after it. -/
theorem sleep (hl : Lasting perform P) (d : Span) (h : P w) : P (w.sleep perform d) := by
  rw [World.sleep, World.waitUntil]
  exact hl.waitFor _ _ h

end Lasting

/-! ### What a wait passes through -/

section Trails

variable (perform : τ → World σ τ → World σ τ)

/-- Where the clock moves to when no task is ready. -/
def nextStop (limit : Instant) (w : World σ τ) : Instant :=
  match w.agenda.nextWake? with
  | some t => if t < limit then t else limit
  | none => limit

/-- The world after the clock has moved there. -/
def moved (limit : Instant) (w : World σ τ) : World σ τ :=
  { w with agenda := w.agenda.moveTo (nextStop limit w) }

/-- The worlds that ready tasks lead through, from the first one on. -/
def readyTrail : Nat → World σ τ → List (World σ τ)
  | 0, w => [w]
  | n + 1, w =>
    match w.agenda.pop? with
    | none => [w]
    | some (t, agenda) => w :: readyTrail n (perform t { w with agenda })

/-- The worlds that a wait leads through, within so many rounds. -/
def roundsTrail (holds : World σ τ → Bool) (limit : Instant) : Nat → World σ τ → List (World σ τ)
  | 0, w => [w]
  | n + 1, w =>
    let w' := runReady perform burst w
    readyTrail perform burst w ++
      if holds w' then []
      else if !w'.agenda.ready.isEmpty then roundsTrail holds limit n w'
      else if nextStop limit w' < limit then roundsTrail holds limit n (moved limit w')
      else [moved limit w']

/-- The worlds that a wait passes through, its end included. -/
def trail (holds : World σ τ → Bool) (limit : Instant) (w : World σ τ) : List (World σ τ) :=
  if holds w then [w] else roundsTrail perform holds limit rounds w

end Trails

section Trails

variable {perform : τ → World σ τ → World σ τ} {P : World σ τ → Prop} {w u : World σ τ}
  {holds : World σ τ → Bool} {limit : Instant}

/-- A wait of a round more begins with a round. -/
theorem waitRounds_succ (n : Nat) :
    waitRounds perform holds limit (n + 1) w =
      let w' := runReady perform burst w
      if holds w' then (true, w')
      else if !w'.agenda.ready.isEmpty then waitRounds perform holds limit n w'
      else if nextStop limit w' < limit then waitRounds perform holds limit n (moved limit w')
      else (holds (moved limit w'), moved limit w') :=
  rfl

theorem rounds_pos : 0 < rounds :=
  Nat.pow_pos (Nat.zero_lt_succ 9)

/-- While there are no tasks, a wait for a moment only moves the clock. -/
theorem waitUntil_of_idle {state : σ} {now due : Instant} (hle : now ≤ due) :
    waitUntil perform due ⟨state, { now }⟩ = ⟨state, { now := due }⟩ := by
  obtain ⟨n, hrounds⟩ : ∃ n, rounds = n + 1 := Nat.exists_eq_add_one.2 rounds_pos
  rw [waitUntil, waitFor, hrounds]
  by_cases hdue : due ≤ now
  · obtain rfl : now = due := congrArg Instant.mk (Nat.le_antisymm hle hdue)
    simp [World.now, hdue]
  · have hready : runReady perform burst (⟨state, { now }⟩ : World σ τ) = ⟨state, { now }⟩ := rfl
    have hstop : nextStop due (⟨state, { now }⟩ : World σ τ) = due := rfl
    have hfar : ¬ due < due := Nat.lt_irrefl _
    simp [World.now, hdue, waitRounds_succ, hready, hstop, hfar, moved, Agenda.moveTo]

/-- While there are no tasks, a sleep only moves the clock. -/
theorem sleep_of_idle (hidle : w.agenda.tasks = []) (d : Span) :
    w.sleep perform d = { w with agenda := { now := w.agenda.wakeTime d } } := by
  obtain ⟨state, now, ready, asleep⟩ := w
  obtain ⟨rfl, hasleep⟩ := List.append_eq_nil_iff.1 hidle
  obtain rfl : asleep = [] := List.map_eq_nil_iff.1 hasleep
  rw [sleep]
  exact waitUntil_of_idle (Instant.le_wake now d)

/-- The last world of the trail is the one that the ready tasks come to. -/
theorem getLast?_readyTrail (n : Nat) (w : World σ τ) :
    (readyTrail perform n w).getLast? = some (runReady perform n w) := by
  induction n generalizing w with
  | zero => rfl
  | succ n ih =>
    rw [readyTrail, runReady]
    cases w.agenda.pop? with
    | none => rfl
    | some x =>
      dsimp only
      rw [List.getLast?_cons, ih]
      rfl

/-- The last world of the trail is the one that the rounds come to. -/
theorem getLast?_roundsTrail (n : Nat) (w : World σ τ) :
    (roundsTrail perform holds limit n w).getLast? = some (waitRounds perform holds limit n w).2 := by
  induction n generalizing w with
  | zero => rfl
  | succ n ih =>
    rw [roundsTrail, waitRounds_succ]
    dsimp only
    rw [List.getLast?_append]
    by_cases hholds : holds (runReady perform burst w)
    · rw [if_pos hholds, if_pos hholds]
      exact getLast?_readyTrail burst w
    rw [if_neg hholds, if_neg hholds]
    by_cases hready : !(runReady perform burst w).agenda.ready.isEmpty
    · rw [if_pos hready, if_pos hready, ih]
      rfl
    rw [if_neg hready, if_neg hready]
    by_cases hnext : nextStop limit (runReady perform burst w) < limit
    · rw [if_pos hnext, if_pos hnext, ih]
      rfl
    · rw [if_neg hnext, if_neg hnext]
      rfl

/-- The last world of its trail is the one that the wait comes to. -/
theorem getLast?_trail : (w.trail perform holds limit).getLast? = some (w.waitFor perform holds limit).2 := by
  rw [trail, waitFor]
  split
  · rfl
  · exact getLast?_roundsTrail rounds w

/-- A wait that is over in time has come to what it waits for. -/
theorem holds_of_waitRounds {n : Nat} (h : (waitRounds perform holds limit n w).1 = true) :
    holds (waitRounds perform holds limit n w).2 = true := by
  induction n generalizing w with
  | zero => exact h
  | succ n ih =>
    rw [waitRounds_succ] at h ⊢
    dsimp only at h ⊢
    by_cases hholds : holds (runReady perform burst w)
    · rw [if_pos hholds]
      exact hholds
    rw [if_neg hholds] at h ⊢
    by_cases hready : !(runReady perform burst w).agenda.ready.isEmpty
    · rw [if_pos hready] at h ⊢
      exact ih h
    rw [if_neg hready] at h ⊢
    by_cases hnext : nextStop limit (runReady perform burst w) < limit
    · rw [if_pos hnext] at h ⊢
      exact ih h
    · rw [if_neg hnext] at h ⊢
      exact h

/-- What is waited for holds when the wait is over in time. -/
theorem holds_of_waitFor (h : (w.waitFor perform holds limit).1 = true) :
    holds (w.waitFor perform holds limit).2 = true := by
  rw [waitFor] at h ⊢
  by_cases hholds : holds w
  · rw [if_pos hholds]
    exact hholds
  · rw [if_neg hholds] at h ⊢
    exact holds_of_waitRounds h

namespace Lasting

/-- What comes to hold while ready tasks run holds after them. -/
theorem of_mem_readyTrail (hl : Lasting perform P) {n : Nat} (hu : u ∈ readyTrail perform n w) (h : P u) :
    P (World.runReady perform n w) := by
  induction n generalizing w with
  | zero => exact List.mem_singleton.1 hu ▸ h
  | succ n ih =>
    have hself : u = w → P (World.runReady perform (n + 1) w) := fun he ↦ hl.runReady (n + 1) (he ▸ h)
    rw [World.readyTrail] at hu
    split at hu
    · exact hself (List.mem_singleton.1 hu)
    · rename_i t agenda hpop
      rcases List.mem_cons.1 hu with he | hu
      · exact hself he
      · rw [World.runReady, hpop]
        exact ih hu

/-- What comes to hold within some rounds holds after them. -/
theorem of_mem_roundsTrail (hl : Lasting perform P) {n : Nat}
    (hu : u ∈ roundsTrail perform holds limit n w) (h : P u) :
    P (World.waitRounds perform holds limit n w).2 := by
  induction n generalizing w with
  | zero => exact List.mem_singleton.1 hu ▸ h
  | succ n ih =>
    rw [roundsTrail] at hu
    rw [waitRounds_succ]
    dsimp only at hu ⊢
    rcases List.mem_append.1 hu with hu | hu
    · -- from within the burst on, the wait goes on as from its end
      have hburst := hl.of_mem_readyTrail hu h
      split
      · exact hburst
      · split
        · exact hl.waitRounds holds limit n hburst
        · rename_i hready
          have hclock : P (moved limit (World.runReady perform burst w)) :=
            hl.clock _ (by simpa using hready) hburst
          split
          · exact hl.waitRounds holds limit n hclock
          · exact hclock
    · by_cases hholds : holds (World.runReady perform burst w)
      · rw [if_pos hholds] at hu
        exact absurd hu List.not_mem_nil
      rw [if_neg hholds] at hu ⊢
      by_cases hready : !(World.runReady perform burst w).agenda.ready.isEmpty
      · rw [if_pos hready] at hu ⊢
        exact ih hu
      rw [if_neg hready] at hu ⊢
      by_cases hnext : nextStop limit (World.runReady perform burst w) < limit
      · rw [if_pos hnext] at hu ⊢
        exact ih hu
      · rw [if_neg hnext] at hu ⊢
        exact List.mem_singleton.1 hu ▸ h

/-- What holds before ready tasks run holds all the way. -/
theorem forall_readyTrail (hl : Lasting perform P) {n : Nat} (h : P w) (hu : u ∈ readyTrail perform n w) :
    P u := by
  induction n generalizing w with
  | zero => exact List.mem_singleton.1 hu ▸ h
  | succ n ih =>
    rw [World.readyTrail] at hu
    split at hu
    · exact List.mem_singleton.1 hu ▸ h
    · rename_i t agenda hpop
      rcases List.mem_cons.1 hu with rfl | hu
      · exact h
      · exact ih (hl.task hpop h) hu

/-- What holds before some rounds holds all the way. -/
theorem forall_roundsTrail (hl : Lasting perform P) {n : Nat} (h : P w)
    (hu : u ∈ roundsTrail perform holds limit n w) : P u := by
  induction n generalizing w with
  | zero => exact List.mem_singleton.1 hu ▸ h
  | succ n ih =>
    have hburst : P (World.runReady perform burst w) := hl.runReady burst h
    rw [roundsTrail] at hu
    rcases List.mem_append.1 hu with hu | hu
    · exact hl.forall_readyTrail h hu
    · split at hu
      · exact absurd hu List.not_mem_nil
      · split at hu
        · exact ih hburst hu
        · rename_i hready
          have hclock : P (moved limit (World.runReady perform burst w)) :=
            hl.clock _ (by simpa using hready) hburst
          split at hu
          · exact ih hclock hu
          · exact List.mem_singleton.1 hu ▸ hclock

/-- What holds before a wait holds all the way. -/
theorem forall_trail (hl : Lasting perform P) (h : P w) (hu : u ∈ w.trail perform holds limit) : P u := by
  rw [trail] at hu
  split at hu
  · exact List.mem_singleton.1 hu ▸ h
  · exact hl.forall_roundsTrail h hu

/-- What comes to hold on the way of a wait holds after it. -/
theorem of_mem_trail (hl : Lasting perform P) (hu : u ∈ w.trail perform holds limit) (h : P u) :
    P (w.waitFor perform holds limit).2 := by
  rw [trail] at hu
  rw [World.waitFor]
  by_cases hholds : holds w
  · rw [if_pos hholds] at hu ⊢
    exact List.mem_singleton.1 hu ▸ h
  · rw [if_neg hholds] at hu ⊢
    exact hl.of_mem_roundsTrail hu h

end Lasting

end Trails

/-- A property of a world that tasks keep and that does not depend on the agenda. -/
structure Kept (perform : τ → World σ τ → World σ τ) (P : World σ τ → Prop) : Prop where
  perform : ∀ {w : World σ τ} (task : τ), P w → P (perform task w)
  agenda : ∀ {w : World σ τ} (agenda : Agenda τ), P w → P { w with agenda }

/-- What tasks keep and the agenda does not touch is lasting. -/
theorem Kept.lasting {perform : τ → World σ τ → World σ τ} {P : World σ τ → Prop} (hk : Kept perform P) :
    Lasting perform P where
  task {_ task agenda} _ h := hk.perform task (hk.agenda agenda h)
  clock _ _ h := hk.agenda _ h

end World

namespace Stage

/-- A property of a stage that waits and flushes keep, and that does not depend on the script. -/
structure Lasting (P : Stage → Prop) : Prop extends World.Lasting perform P where
  script : ∀ {s : Stage} (script : Script), P s → P { s with state := { s.state with script } }
  flush : ∀ {s : Stage}, P s → P (s.record .flush)

/-- One that the tasks keep, and that does not depend on the agenda either. -/
structure Kept (P : Stage → Prop) : Prop extends World.Kept perform P where
  script : ∀ {s : Stage} (script : Script), P s → P { s with state := { s.state with script } }
  flush : ∀ {s : Stage}, P s → P (s.record .flush)

/-- A property of the stage that tasks keep is lasting. -/
theorem Kept.lasting {P : Stage → Prop} (hk : Kept P) : Lasting P where
  toLasting := hk.toKept.lasting
  script := hk.script
  flush := hk.flush

/-- A listing is the business of the stream. That it crashes is only marked. -/
theorem listOwn_snd (s : Stage) (token : Option String) :
    ∃ crashed, (s.listOwn token).2 =
      { s with state := { s.state with stream := (s.state.stream.list token).2, crashed } } := by
  rw [listOwn]
  generalize s.state.stream.list token = x
  obtain ⟨answer, m⟩ := x
  cases answer with
  | none => exact ⟨true, rfl⟩
  | some page => exact ⟨s.state.crashed, rfl⟩

namespace Lasting

variable {P : Stage → Prop} {s : Stage}

theorem waitFor (hl : Lasting P) (holds : StageState → Bool) (limit : Instant) (h : P s) :
    P (s.waitFor holds limit).2 := by
  rw [Stage.waitFor]
  exact hl.toLasting.waitFor _ limit h

/-- What holds before an answer is held back holds after that. -/
theorem holdBack (hl : Lasting P) (limit : Instant) (delay : Option Nat) (h : P s) :
    P (s.holdBack limit delay).2 := by
  cases delay with
  | none => exact h
  | some ms =>
    rw [Stage.holdBack]
    exact hl.toLasting.waitFor _ _ h

/-- What holds before a listing holds after it, if the call and the answer of the stream keep it. -/
theorem list (hl : Lasting P) {token : Option String} (hcall : ∀ {s : Stage}, P s → P (s.record (.list token)))
    (hown : ∀ {s : Stage}, P s → P ((s.record (.list token)).listOwn token).2)
    (limit : Instant) (h : P s) : P (s.list token limit).2 := by
  have hback := hl.holdBack limit (s.state.script.listings.headD {}).delay
    (hl.script { s.state.script with listings := s.state.script.listings.tail } h)
  rw [Stage.list]
  dsimp only
  generalize Stage.holdBack _ limit _ = x at hback ⊢
  obtain ⟨came, s₁⟩ := x
  cases came with
  | false => exact hback
  | true =>
    dsimp only
    split
    · exact hcall hback
    · exact hown hback

/-- The same for a put. -/
theorem put (hl : Lasting P) {record : Record} (hcall : ∀ {s : Stage}, P s → P (s.record (.put record)))
    (hown : ∀ {s : Stage}, P s → P ((s.record (.put record)).onStream fun _ ↦ (s.state.stream.put record).2))
    (limit : Instant) (h : P s) : P (s.put record limit).2 := by
  have hback := hl.holdBack limit (s.state.script.puts.headD {}).delay
    (hl.script { s.state.script with puts := s.state.script.puts.tail } h)
  rw [Stage.put]
  dsimp only
  generalize Stage.holdBack _ limit _ = x at hback ⊢
  obtain ⟨came, s₁⟩ := x
  cases came with
  | false => exact hback
  | true =>
    dsimp only
    split
    · exact hcall hback
    · exact hown hback

/-- What holds before a flush of the stream holds after it. -/
theorem flushOwn (hl : Lasting P) (limit : Instant) (h : P s) : P (s.flushOwn limit).2 := by
  have hdelayed := hl.waitFor (fun t ↦ t.delayed = 0) limit h
  rw [Stage.flushOwn]
  generalize s.waitFor (fun t ↦ t.delayed = 0) limit = x at hdelayed ⊢
  obtain ⟨came, s₁⟩ := x
  cases came with
  | false => exact hdelayed
  | true =>
    have hheld := hl.waitFor (fun t ↦ t.stream.held.isEmpty) limit hdelayed
    dsimp only
    generalize Stage.waitFor s₁ (fun t ↦ t.stream.held.isEmpty) limit = x at hheld ⊢
    obtain ⟨came, s₂⟩ := x
    cases came <;> exact hheld

/-- What holds before a flush holds after it. -/
theorem flushed (hl : Lasting P) (limit : Instant) (h : P s) : P (s.flush limit).2 := by
  have hback := hl.holdBack limit (s.state.script.flushes.headD {}).delay
    (hl.script { s.state.script with flushes := s.state.script.flushes.tail } h)
  rw [Stage.flush]
  dsimp only
  generalize Stage.holdBack _ limit _ = x at hback ⊢
  obtain ⟨came, s₁⟩ := x
  cases came with
  | false => exact hback
  | true =>
    dsimp only
    split
    · exact hl.flush hback
    · exact hl.flushOwn limit (hl.flush hback)

end Lasting

end Stage

end Tidemark.Rehearsal
