import BoundsCheck.Proofs.Course

/-!
# A stream of hits

If the cache of a core holds all entries that it is asked for, then every trace takes the same time
on each leg of its way, so the cycle in which it is given to the checker tells where it is at any
time.  A trace keeps its place in the checker for a fixed number of cycles.  So it enters right
behind the one before it, unless the checker is full: then it enters when the first trace that is
still with the checker leaves it.

* `Stream.fedAt`, `Stream.plan` — when the traces of a stream enter the checker.
* `Stream.room_iff` — there is room for the next trace exactly when its time has come.
* `Stream`, `Stream.Timed` — where the traces of a stream are, each as long as its time says.
* `Stream.Timed.room` — a checker with a stream of hits has room when the next trace is due.
* `Stream.Timed.next` — a cycle carries them on.
-/

set_option autoImplicit false

namespace BoundsCheck

/-- The traces of a stream, by where they are, and for each the cycle in which it entered the
checker or is going to. -/
structure Stream where
  gone : List Leg := []
  output : List Leg := []
  answered : List Leg := []
  asked : List Leg := []
  input : List Leg := []
  queue : List Leg := []

namespace Stream

/-! ## The plan -/

section Plan

variable {capacity round start i j : Nat} {traces : List Trace}

/-- The cycle in which the trace with the given number enters a checker with room for `capacity`
traces, if each of them stays there for `round` cycles. -/
def fedAt (capacity round start j : Nat) : Nat :=
  start + j / capacity * max capacity round + j % capacity

theorem fedAt_zero (capacity round start : Nat) : fedAt capacity round start 0 = start := by
  rw [fedAt, Nat.zero_div, Nat.zero_mul, Nat.zero_mod, Nat.add_zero]

theorem fedAt_mul_add {r : Nat} (hr : r < capacity) (round start q : Nat) :
    fedAt capacity round start (q * capacity + r) = start + q * max capacity round + r := by
  rw [fedAt, Nat.mul_comm q capacity, Nat.mul_add_div (Nat.zero_lt_of_lt hr), Nat.div_eq_of_lt hr,
    Nat.mul_add_mod, Nat.mod_eq_of_lt hr, Nat.add_zero]

/-- If all places are free again in time, then there is a trace in each cycle. -/
theorem fedAt_of_le (hroom : round ≤ capacity) (start j : Nat) :
    fedAt capacity round start j = start + j := by
  rw [fedAt, Nat.max_eq_left hroom, Nat.add_assoc, Nat.div_add_mod']

/-- A trace enters one full turn after the one that had its place before it. -/
theorem fedAt_add (hpos : 0 < capacity) (round start j : Nat) :
    fedAt capacity round start (j + capacity)
      = fedAt capacity round start j + max capacity round := by
  rw [fedAt, fedAt, Nat.add_div_right j hpos, Nat.add_mod_right, Nat.succ_mul]
  omega

/-- It enters right behind the trace before it, or else when the first place gets free. -/
theorem fedAt_succ (hpos : 0 < capacity) (round start j : Nat) :
    fedAt capacity round start (j + 1) = fedAt capacity round start j + 1 ∨
      fedAt capacity round start j + 1 < fedAt capacity round start (j + 1) ∧
        ∃ i, i + capacity = j + 1 ∧
          fedAt capacity round start (j + 1) = fedAt capacity round start i + round := by
  have hr := Nat.mod_lt j hpos
  have hj : j = j / capacity * capacity + j % capacity := by
    rw [Nat.mul_comm]
    exact (Nat.div_add_mod j capacity).symm
  generalize j / capacity = q at hj
  generalize j % capacity = r at hj hr
  subst hj
  by_cases hlast : r + 1 < capacity
  · rw [Nat.add_assoc, fedAt_mul_add hlast, fedAt_mul_add hr]
    exact .inl rfl
  · have hnext : q * capacity + r + 1 = q * capacity + 0 + capacity := by omega
    have hturn := fedAt_add hpos round start (q * capacity + 0)
    rw [hnext, hturn, fedAt_mul_add hr, fedAt_mul_add hpos]
    by_cases hfull : capacity < round
    · refine .inr ⟨by omega, q * capacity, rfl, ?_⟩
      rw [← Nat.add_zero (q * capacity), fedAt_mul_add hpos, Nat.max_eq_right hfull.le]
    · exact .inl (by omega)

theorem fedAt_lt_succ (hpos : 0 < capacity) (round start j : Nat) :
    fedAt capacity round start j < fedAt capacity round start (j + 1) := by
  rcases fedAt_succ hpos round start j with heq | ⟨hlt, -⟩
  · rw [heq]
    exact Nat.lt_succ_self _
  · exact Nat.lt_of_succ_lt hlt

theorem strictMono_fedAt (hpos : 0 < capacity) (round start : Nat) :
    StrictMono (fedAt capacity round start) :=
  strictMono_nat_of_lt_succ (fedAt_lt_succ hpos round start)

/-- When the traces of a stream enter the checker. -/
def plan (capacity round start : Nat) (traces : List Trace) : List Leg :=
  traces.mapIdx fun j trace => ⟨trace, fedAt capacity round start j⟩

theorem trace_plan (capacity round start : Nat) (traces : List Trace) :
    (plan capacity round start traces).map (·.trace) = traces := by
  refine List.ext_getElem (by simp [plan]) fun j hj hj' => ?_
  simp only [plan, List.getElem_map, List.getElem_mapIdx]

theorem sent_plan (capacity round start : Nat) (traces : List Trace) :
    (plan capacity round start traces).map (·.sent)
      = (List.range traces.length).map (fedAt capacity round start) := by
  refine List.ext_getElem (by simp [plan]) fun j hj hj' => ?_
  simp only [plan, List.getElem_map, List.getElem_mapIdx, List.getElem_range]

theorem sent_of_plan {before after : List Leg} {leg : Leg}
    (h : plan capacity round start traces = before ++ leg :: after) :
    leg.sent = fedAt capacity round start before.length := by
  have hget := congrArg (fun legs : List Leg => legs[before.length]?) h
  rw [List.getElem?_append_right (Nat.le_refl _), Nat.sub_self, List.getElem?_cons_zero, plan,
    List.getElem?_mapIdx, Option.map_eq_some_iff] at hget
  obtain ⟨trace, -, rfl⟩ := hget
  rfl

theorem exists_sent_of_plan {before after : List Leg}
    (h : plan capacity round start traces = before ++ after) (hi : i < before.length) :
    ∃ leg ∈ before, leg.sent = fedAt capacity round start i := by
  refine ⟨before[i], List.getElem_mem hi, ?_⟩
  have hsplit : before = before.take i ++ before[i] :: before.drop (i + 1) := by
    rw [List.getElem_cons_drop, List.take_append_drop]
  rw [hsplit, List.append_assoc, List.cons_append] at h
  have hsent := sent_of_plan h
  rwa [List.length_take, Nat.min_eq_left hi.le] at hsent

theorem pairwise_plan (hpos : 0 < capacity) (round start : Nat) (traces : List Trace) :
    (plan capacity round start traces).Pairwise fun leg other => leg.sent < other.sent := by
  rw [List.pairwise_iff_getElem]
  intro i j hi hj hlt
  simp only [plan, List.getElem_mapIdx]
  exact strictMono_fedAt hpos round start hlt

/-- **There is room for the next trace exactly when its time has come.**  The traces before it have
left the checker, or have entered it and not spent a round there. -/
theorem room_iff (hpos : 0 < capacity) (hround : 0 < round) {before inside after : List Leg}
    {leg : Leg} {now : Nat}
    (hplan : plan capacity round start traces = before ++ inside ++ leg :: after)
    (hstart : start ≤ now) (hbefore : ∀ other ∈ before, other.sent + round ≤ now)
    (hinside : ∀ other ∈ inside, other.sent < now ∧ now < other.sent + round)
    (hleg : now ≤ leg.sent) : inside.length < capacity ↔ leg.sent = now := by
  have hsent := sent_of_plan hplan
  rw [List.length_append] at hsent
  constructor
  · intro hroom
    by_contra hne
    -- the trace before it has entered, so it waits for the place of one that has left
    rcases hcount : before.length + inside.length with _ | j
    · rw [hcount, fedAt_zero] at hsent
      omega
    · have hlast : j < (before ++ inside).length := by
        rw [List.length_append]
        omega
      obtain ⟨other, hother, hentered⟩ := exists_sent_of_plan hplan hlast
      have hearlier : other.sent < now := by
        rcases List.mem_append.mp hother with hother | hother
        · have hleft := hbefore other hother
          omega
        · exact (hinside other hother).1
      rw [hcount] at hsent
      rcases fedAt_succ hpos round start j with hnext | ⟨-, i, hi, hfree⟩
      · omega
      · rw [List.append_assoc] at hplan
        obtain ⟨first, hfirst, hthen⟩ := exists_sent_of_plan hplan (by omega : i < before.length)
        have hleft := hbefore first hfirst
        omega
  · intro hdue
    by_contra hfull
    rcases inside with _ | ⟨first, others⟩
    · exact hfull hpos
    · rw [List.append_assoc] at hplan
      have hfirst := sent_of_plan hplan
      have hstays := (hinside first List.mem_cons_self).2
      have hturn := fedAt_add hpos round start before.length
      have hmono : fedAt capacity round start (before.length + capacity)
          ≤ fedAt capacity round start (before.length + (first :: others).length) :=
        (strictMono_fedAt hpos round start).monotone (by omega)
      omega

end Plan

/-! ## Courses of streams -/

/-- The same traces some cycles later. -/
def later (delay : Nat) (legs : List Leg) : List Leg :=
  legs.map fun leg => ⟨leg.trace, leg.sent + delay⟩

theorem later_append (delay : Nat) (legs others : List Leg) :
    later delay (legs ++ others) = later delay legs ++ later delay others :=
  List.map_append

theorem trace_later (delay : Nat) (legs : List Leg) :
    (later delay legs).map (·.trace) = legs.map (·.trace) := by
  rw [later, List.map_map]
  rfl

theorem sent_later (delay : Nat) (legs : List Leg) :
    (later delay legs).map (·.sent) = (legs.map (·.sent)).map (· + delay) := by
  rw [later, List.map_map, List.map_map]
  rfl

theorem length_later (delay : Nat) (legs : List Leg) : (later delay legs).length = legs.length :=
  List.length_map _

/-- The traces that have taken long enough are passed on, if no two of them are due at once. -/
theorem passOn_later (x delay : Nat) {source : List Leg} {now : Nat}
    (hsorted : source.Pairwise fun leg other => leg.sent < other.sent)
    (hle : ∀ leg ∈ source, now ≤ leg.sent + (x + delay)) :
    ∃ moved rest, source = moved ++ rest ∧ (∀ leg ∈ moved, leg.sent + (x + delay) = now) ∧
      (∀ leg ∈ rest, now < leg.sent + (x + delay)) ∧
      ∀ target, passOn delay now (later x source) (later (x + delay) target)
        = (later x rest, later (x + delay) (target ++ moved)) := by
  rcases source with _ | ⟨leg, rest⟩
  · refine ⟨[], [], rfl, fun _ h => absurd h List.not_mem_nil,
      fun _ h => absurd h List.not_mem_nil, fun target => ?_⟩
    rw [List.append_nil]
    rfl
  · rw [List.pairwise_cons] at hsorted
    have hfirst := hle leg List.mem_cons_self
    by_cases hdue : leg.sent + (x + delay) = now
    · refine ⟨[leg], rest, rfl, fun other hother => ?_, fun other hother => ?_, fun target => ?_⟩
      · rw [List.mem_singleton.mp hother]
        exact hdue
      · have hlt := hsorted.1 other hother
        omega
      · have hvisible : leg.sent + x + delay ≤ now := by omega
        rw [later, List.map_cons, passOn, if_pos hvisible, later_append, later, later, ← hdue]
        rfl
    · refine ⟨[], leg :: rest, rfl, fun _ h => absurd h List.not_mem_nil,
        fun other hother => ?_, fun target => ?_⟩
      · rcases List.mem_cons.mp hother with rfl | hother
        · omega
        · have hlt := hsorted.1 other hother
          omega
      · have hlate : ¬ leg.sent + x + delay ≤ now := by omega
        rw [later, List.map_cons, passOn, if_neg hlate, List.append_nil]

/-- All traces of a stream, the first one in front. -/
def legs (s : Stream) : List Leg :=
  s.gone ++ s.output ++ s.answered ++ s.asked ++ s.input ++ s.queue

/-- For so many cycles a hit keeps its place in the checker. -/
def round (c : Config) : Nat := 2 + c.l1.hitLatency.toNat

/-- The course of a core with a stream of hits. -/
def course (c : Config) (held : BufferId → Bool) (s : Stream) : Course where
  queue := s.queue.map (·.trace)
  input := later 0 s.input
  asked := later 1 s.asked
  answered := later 2 s.answered
  output := later (round c) s.output
  gone := later (round c) s.gone
  held := held

/-- Before the given cycle all traces are where they belong by the cycle they entered in. -/
structure Timed (c : Config) (now : Nat) (s : Stream) : Prop where
  gone : ∀ leg ∈ s.gone, leg.sent + (round c + 1) < now
  output : ∀ leg ∈ s.output, leg.sent + (round c + 1) = now
  answered : ∀ leg ∈ s.answered, leg.sent + 2 < now ∧ now ≤ leg.sent + round c
  asked : ∀ leg ∈ s.asked, leg.sent + 2 = now
  input : ∀ leg ∈ s.input, leg.sent + 1 = now
  queue : ∀ leg ∈ s.queue, now ≤ leg.sent

variable {c : Config} {held : BufferId → Bool} {now : Nat}
  {gone output answered asked input queue : List Leg}

/-- All traces that were asked for are answered. -/
theorem hit_course (hsorted : asked.Pairwise fun leg other => leg.sent < other.sent)
    (hasked : ∀ leg ∈ asked, leg.sent + 2 = now) :
    (course c held ⟨gone, output, answered, asked, input, queue⟩).hit now
      = course c held ⟨gone, output, answered ++ asked, [], input, queue⟩ := by
  obtain ⟨moved, rest, hsplit, -, hrest, hpass⟩ :=
    passOn_later 1 1 hsorted fun leg hleg => (hasked leg hleg).ge
  obtain rfl : rest = [] := List.eq_nil_iff_forall_not_mem.mpr fun leg hleg => by
    have hdue := hasked leg (hsplit ▸ List.mem_append_right moved hleg)
    exact Nat.lt_irrefl _ (hdue ▸ hrest leg hleg)
  rw [List.append_nil] at hsplit
  subst hsplit
  have hpass' : passOn 1 now (later 1 asked) (later 2 answered)
      = ([], later 2 (answered ++ asked)) := hpass answered
  simp only [course, Course.hit, hpass']
  rfl

/-- The traces whose answers are due are judged. -/
theorem judge_course (hsorted : answered.Pairwise fun leg other => leg.sent < other.sent)
    (hanswered : ∀ leg ∈ answered, now ≤ leg.sent + round c) :
    ∃ moved rest, answered = moved ++ rest ∧ (∀ leg ∈ moved, leg.sent + round c = now) ∧
      (∀ leg ∈ rest, now < leg.sent + round c) ∧
      (course c held ⟨gone, output, answered, asked, input, queue⟩).judge c now
        = course c held ⟨gone, output ++ moved, rest, asked, input, queue⟩ := by
  obtain ⟨moved, rest, hsplit, hmoved, hrest, hpass⟩ :=
    passOn_later 2 c.l1.hitLatency.toNat hsorted hanswered
  refine ⟨moved, rest, hsplit, hmoved, hrest, ?_⟩
  have hpass' : passOn c.l1.hitLatency.toNat now (later 2 answered) (later (round c) output)
      = (later 2 rest, later (round c) (output ++ moved)) := hpass output
  simp only [course, Course.judge, hpass']

/-- The checker asks for all traces that it was given before. -/
theorem ask_course (hsorted : input.Pairwise fun leg other => leg.sent < other.sent)
    (hinput : ∀ leg ∈ input, leg.sent + 1 = now) :
    (course c held ⟨gone, output, answered, asked, input, queue⟩).ask now
      = course c held ⟨gone, output, answered, asked ++ input, [], queue⟩ := by
  obtain ⟨moved, rest, hsplit, -, hrest, hpass⟩ :=
    passOn_later 0 1 hsorted fun leg hleg => by
      rw [Nat.zero_add]
      exact (hinput leg hleg).ge
  obtain rfl : rest = [] := List.eq_nil_iff_forall_not_mem.mpr fun leg hleg => by
    have hdue := hinput leg (hsplit ▸ List.mem_append_right moved hleg)
    have hlate := hrest leg hleg
    omega
  rw [List.append_nil] at hsplit
  subst hsplit
  have hpass' : passOn 1 now (later 0 input) (later 1 asked)
      = ([], later 1 (asked ++ input)) := hpass asked
  simp only [course, Course.ask, hpass']
  rfl

/-- The traces that were judged before are taken from the checker. -/
theorem collect_course {judged : List Leg}
    (houtput : ∀ leg ∈ output, leg.sent + (round c + 1) = now)
    (hjudged : ∀ leg ∈ judged, leg.sent + round c = now) :
    (course c held ⟨gone, output ++ judged, answered, asked, input, queue⟩).collect now
      = course c held ⟨gone ++ output, judged, answered, asked, input, queue⟩ := by
  have hvisible : ∀ leg ∈ later (round c) output, decide (leg.sent + 1 ≤ now) = true := by
    intro leg hleg
    obtain ⟨leg, hmem, rfl⟩ := List.mem_map.mp hleg
    exact decide_eq_true (houtput leg hmem).le
  have hlate : ∀ leg ∈ later (round c) judged, ¬ decide (leg.sent + 1 ≤ now) = true := by
    intro leg hleg
    obtain ⟨leg, hmem, rfl⟩ := List.mem_map.mp hleg
    have hsent := hjudged leg hmem
    rw [decide_eq_true_eq]
    show ¬ leg.sent + round c + 1 ≤ now
    omega
  have hnone : (later (round c) judged).takeWhile (·.sent + 1 ≤ now) = [] ∧
      (later (round c) judged).dropWhile (·.sent + 1 ≤ now) = later (round c) judged := by
    rcases hlegs : later (round c) judged with _ | ⟨leg, rest⟩
    · exact ⟨rfl, rfl⟩
    · rw [hlegs] at hlate
      have hleg := hlate leg List.mem_cons_self
      exact ⟨List.takeWhile_cons_of_neg hleg, List.dropWhile_cons_of_neg hleg⟩
  simp only [course, Course.collect, later_append,
    List.takeWhile_append_of_pos hvisible, List.dropWhile_append_of_pos hvisible, hnone,
    List.append_nil]

/-- The checker is given the next trace when its time has come. -/
theorem feed_course (hsorted : queue.Pairwise fun leg other => leg.sent < other.sent)
    (hqueue : ∀ leg ∈ queue, now ≤ leg.sent)
    (hroom : ∀ leg rest, queue = leg :: rest →
      ((course c held ⟨gone, output, answered, asked, input, queue⟩).load
        < c.checker.queueSize.toNat ↔ leg.sent = now)) :
    ∃ moved rest, queue = moved ++ rest ∧ (∀ leg ∈ moved, leg.sent = now) ∧
      (∀ leg ∈ rest, now < leg.sent) ∧
      (course c held ⟨gone, output, answered, asked, input, queue⟩).feed c now
        = course c held ⟨gone, output, answered, asked, input ++ moved, rest⟩ := by
  rcases queue with _ | ⟨leg, rest⟩
  · refine ⟨[], [], rfl, fun _ h => absurd h List.not_mem_nil,
      fun _ h => absurd h List.not_mem_nil, ?_⟩
    simp only [course, Course.feed, List.map_nil, List.append_nil]
  · have hroom := hroom leg rest rfl
    rw [List.pairwise_cons] at hsorted
    have hfirst := hqueue leg List.mem_cons_self
    have hfeed : (course c held ⟨gone, output, answered, asked, input, leg :: rest⟩).queue
        = leg.trace :: rest.map (·.trace) := rfl
    by_cases hdue : leg.sent = now
    · refine ⟨[leg], rest, rfl, fun other hother => ?_, fun other hother => ?_, ?_⟩
      · rw [List.mem_singleton.mp hother]
        exact hdue
      · have hlt := hsorted.1 other hother
        omega
      · have hinput : later 0 (input ++ [leg]) = later 0 input ++ [⟨leg.trace, now⟩] := by
          rw [later_append, ← hdue]
          rfl
        rw [Course.feed, hfeed]
        simp only [if_pos (hroom.mpr hdue)]
        simp only [course, hinput]
    · refine ⟨[], leg :: rest, rfl, fun _ h => absurd h List.not_mem_nil,
        fun other hother => ?_, ?_⟩
      · rcases List.mem_cons.mp hother with rfl | hother
        · omega
        · have hlt := hsorted.1 other hother
          omega
      · rw [Course.feed, hfeed]
        simp only [if_neg (mt hroom.mp hdue)]
        rw [List.append_nil]

/-! ## One cycle -/

theorem legs_of_split {s : Stream} {judged rest : List Leg}
    (hsplit : s.answered ++ s.asked = judged ++ rest) :
    s.legs = s.gone ++ s.output ++ judged ++ (rest ++ s.input) ++ s.queue := by
  rw [legs, List.append_assoc (s.gone ++ s.output), hsplit]
  simp only [List.append_assoc]

/-- The parts of a stream in order are in order. -/
theorem sorted_of_legs {s : Stream}
    (hsorted : s.legs.Pairwise fun leg other => leg.sent < other.sent) :
    ((s.answered ++ s.asked).Pairwise fun leg other => leg.sent < other.sent) ∧
      (s.asked.Pairwise fun leg other => leg.sent < other.sent) ∧
      (s.input.Pairwise fun leg other => leg.sent < other.sent) ∧
      s.queue.Pairwise fun leg other => leg.sent < other.sent := by
  rw [legs] at hsorted
  obtain ⟨hlast, hqueue, -⟩ := List.pairwise_append.mp hsorted
  obtain ⟨hlast, hinput, -⟩ := List.pairwise_append.mp hlast
  obtain ⟨hlast, hasked, hacross⟩ := List.pairwise_append.mp hlast
  refine ⟨List.pairwise_append.mpr ⟨(List.pairwise_append.mp hlast).2.1, hasked,
    fun leg hleg other hother => ?_⟩, hasked, hinput, hqueue⟩
  exact hacross leg (List.mem_append_right _ hleg) other hother

/-- Those that were asked for are answered, and of all that are answered some are judged. -/
theorem Timed.judge {s : Stream} (h : s.Timed c now)
    (hsorted : s.legs.Pairwise fun leg other => leg.sent < other.sent) (held : BufferId → Bool) :
    ∃ judged rest, s.answered ++ s.asked = judged ++ rest ∧
      (∀ leg ∈ judged, leg.sent + round c = now) ∧
      (∀ leg ∈ rest, leg.sent + 2 ≤ now ∧ now < leg.sent + round c) ∧
      ((s.course c held).hit now).judge c now
        = course c held ⟨s.gone, s.output ++ judged, rest, [], s.input, s.queue⟩ := by
  obtain ⟨hanswered, hasked, -, -⟩ := sorted_of_legs hsorted
  have hround : 2 ≤ round c := Nat.le_add_right _ _
  have htimes : ∀ leg ∈ s.answered ++ s.asked, leg.sent + 2 ≤ now ∧ now ≤ leg.sent + round c := by
    intro leg hleg
    rcases List.mem_append.mp hleg with hleg | hleg
    · have hsent := h.answered leg hleg
      omega
    · have hsent := h.asked leg hleg
      omega
  have hhit : (s.course c held).hit now
      = course c held ⟨s.gone, s.output, s.answered ++ s.asked, [], s.input, s.queue⟩ :=
    hit_course hasked h.asked
  obtain ⟨judged, rest, hsplit, hjudged, hrest, hjudge⟩ :=
    @judge_course c held now s.gone s.output _ [] s.input s.queue hanswered
      fun leg hleg => (htimes leg hleg).2
  refine ⟨judged, rest, hsplit, hjudged, fun leg hleg => ⟨?_, hrest leg hleg⟩, ?_⟩
  · exact (htimes leg (hsplit ▸ List.mem_append_right judged hleg)).1
  · rw [hhit, hjudge]

/-- **The checker has room for the next trace of a stream exactly when its time has come.**  Those
that are answered and not judged, and those that it is given, are the ones that take up room. -/
theorem Timed.room {s : Stream} (h : s.Timed c now) (hc : c.Accepted) {start : Nat}
    {traces : List Trace} (hplan : plan c.checker.queueSize.toNat (round c) start traces = s.legs)
    (hstart : start ≤ now) {judged rest : List Leg} (hsplit : s.answered ++ s.asked = judged ++ rest)
    (hjudged : ∀ leg ∈ judged, leg.sent + round c = now)
    (hrest : ∀ leg ∈ rest, leg.sent + 2 ≤ now ∧ now < leg.sent + round c) {leg : Leg}
    {others : List Leg} (hqueue : s.queue = leg :: others) (held : BufferId → Bool) :
    (course c held ⟨s.gone ++ s.output, judged, rest, s.input, [], s.queue⟩).load
      < c.checker.queueSize.toNat ↔ leg.sent = now := by
  have hround : 2 ≤ round c := Nat.le_add_right _ _
  have hload : (course c held ⟨s.gone ++ s.output, judged, rest, s.input, [], s.queue⟩).load
      = (rest ++ s.input).length := by
    rw [Course.load, course, length_later, length_later, List.length_append]
    show s.input.length + 0 + rest.length + 0 = _
    omega
  rw [legs_of_split hsplit, hqueue] at hplan
  rw [hload]
  refine room_iff (toNat_pos_of_ne_zero hc.queueSize) (by omega) hplan hstart
    (fun other hother => ?_) (fun other hother => ?_) (h.queue leg (hqueue ▸ List.mem_cons_self))
  · rw [List.mem_append, List.mem_append] at hother
    rcases hother with (hother | hother) | hother
    · have hsent := h.gone other hother
      omega
    · have hsent := h.output other hother
      omega
    · exact (hjudged other hother).le
  · rcases List.mem_append.mp hother with hother | hother
    · have hsent := hrest other hother
      omega
    · have hsent := h.input other hother
      omega

/-- Each trace has gone as far as its time says, one cycle later. -/
theorem Timed.succ {s : Stream} (h : s.Timed c now) {judged rest moved others : List Leg}
    (hjudged : ∀ leg ∈ judged, leg.sent + round c = now)
    (hrest : ∀ leg ∈ rest, leg.sent + 2 ≤ now ∧ now < leg.sent + round c)
    (hmoved : ∀ leg ∈ moved, leg.sent = now) (hothers : ∀ leg ∈ others, now < leg.sent) :
    Timed c (now + 1) ⟨s.gone ++ s.output, judged, rest, s.input, moved, others⟩ where
  gone leg hleg := by
    rcases List.mem_append.mp hleg with hleg | hleg
    · have hsent := h.gone leg hleg
      omega
    · have hsent := h.output leg hleg
      omega
  output leg hleg := by
    have hsent := hjudged leg hleg
    omega
  answered leg hleg := by
    have hsent := hrest leg hleg
    omega
  asked leg hleg := by
    have hsent := h.input leg hleg
    omega
  input leg hleg := by
    have hsent := hmoved leg hleg
    omega
  queue leg hleg := hothers leg hleg

/-- **A cycle carries a stream on**, and after it all traces are again where they belong. -/
theorem Timed.next {s : Stream} (h : s.Timed c now) (hc : c.Accepted) {start : Nat}
    {traces : List Trace} (hplan : plan c.checker.queueSize.toNat (round c) start traces = s.legs)
    (hstart : start ≤ now) (held : BufferId → Bool) :
    ∃ next : Stream, next.legs = s.legs ∧ next.Timed c (now + 1) ∧
      ((s.course c held).hit now).work c now = next.course c held := by
  have hsorted := pairwise_plan (toNat_pos_of_ne_zero hc.queueSize) (round c) start traces
  rw [hplan] at hsorted
  obtain ⟨-, -, hinput, hqueue⟩ := sorted_of_legs hsorted
  obtain ⟨judged, rest, hsplit, hjudged, hrest, hjudge⟩ := h.judge hsorted held
  obtain ⟨moved, others, hmoves, hmoved, hothers, hfeed⟩ :=
    feed_course hqueue h.queue fun leg others hnext =>
      h.room hc hplan hstart hsplit hjudged hrest hnext held
  refine ⟨⟨s.gone ++ s.output, judged, rest, s.input, moved, others⟩, ?_,
    h.succ hjudged hrest hmoved hothers, ?_⟩
  · rw [legs_of_split hsplit, hmoves, legs]
    simp only [List.append_assoc]
  · rw [Course.work, hjudge, ask_course hinput h.input, collect_course h.output hjudged]
    exact hfeed

/-- A stream that has not begun. -/
theorem timed_plan (c : Config) (start : Nat) (traces : List Trace) :
    ({ queue := plan c.checker.queueSize.toNat (round c) start traces } : Stream).Timed c start := by
  refine ⟨fun _ h => absurd h List.not_mem_nil, fun _ h => absurd h List.not_mem_nil,
    fun _ h => absurd h List.not_mem_nil, fun _ h => absurd h List.not_mem_nil,
    fun _ h => absurd h List.not_mem_nil, fun leg hleg => ?_⟩
  obtain ⟨j, hj, rfl⟩ := List.mem_mapIdx.mp hleg
  exact Nat.le_add_right_of_le (Nat.le_add_right _ _)

theorem legs_of_isDone {s : Stream} (h : (s.course c held).isDone = true) : s.legs = s.gone := by
  simp only [Course.isDone, course, later, Bool.and_eq_true, List.isEmpty_iff, List.map_eq_nil_iff]
    at h
  obtain ⟨⟨⟨⟨⟨hqueue, hinput⟩, hasked⟩, -⟩, hanswered⟩, houtput⟩ := h
  simp only [legs, hqueue, hinput, hasked, hanswered, houtput, List.append_nil]

/-- A stream that is over. -/
theorem Timed.eq_gone {s : Stream} (h : s.Timed c now)
    (hover : ∀ leg ∈ s.legs, leg.sent + (round c + 2) ≤ now) : s = { gone := s.legs } := by
  have hempty : ∀ piece : List Leg, (∀ leg ∈ piece, leg ∈ s.legs) →
      (∀ leg ∈ piece, now < leg.sent + (round c + 2)) → piece = [] := by
    intro piece hpiece hlate
    refine List.eq_nil_iff_forall_not_mem.mpr fun leg hleg => ?_
    exact Nat.not_le_of_lt (hlate leg hleg) (hover leg (hpiece leg hleg))
  have houtput := hempty s.output (by simp +contextual [legs]) fun leg hleg => by
    have hsent := h.output leg hleg
    omega
  have hanswered := hempty s.answered (by simp +contextual [legs]) fun leg hleg => by
    have hsent := h.answered leg hleg
    omega
  have hasked := hempty s.asked (by simp +contextual [legs]) fun leg hleg => by
    have hsent := h.asked leg hleg
    rw [round]
    omega
  have hinput := hempty s.input (by simp +contextual [legs]) fun leg hleg => by
    have hsent := h.input leg hleg
    omega
  have hqueue := hempty s.queue (by simp +contextual [legs]) fun leg hleg => by
    have hsent := h.queue leg hleg
    omega
  obtain ⟨gone, output, answered, asked, input, queue⟩ := s
  subst houtput hanswered hasked hinput hqueue
  simp only [legs, List.append_nil]

end Stream

end BoundsCheck
