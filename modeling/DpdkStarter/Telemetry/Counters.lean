import Mathlib.Algebra.BigOperators.Fin
import DpdkStarter.Library.Run

/-!
The counters of `telementry/advanced_stats/main.c`: one for each lcore, which only its own
worker writes, and `g_total_loops`, which every worker increments without a lock.

An increment is a load and a store, and the workers interleave between them; every list of
lcores is one run. Each access is taken to reach memory in the order of the program:
`g_total_loops` is volatile, the counter of an lcore is not and is stored with a plain store.
An update of the total is lost when another worker stored between the two.

* `workerLoop`, `advSummaryHandler`, `advLcoreStatsHandler`: the worker and the two commands.
* `Undisturbed`: a store of the total finds in it what was loaded.
* `Exact`, `Behind`: the total is what all rounds together come to, or it is less, and then
  so is every value still to be stored: what is lost is never made up for.
* `summary_within_stats`: the total a client reads first is never more than the counters it
  reads afterwards come to, and it is as much exactly when no update was lost.
-/

namespace DpdkStarter.Telemetry

open Machine

/-- Where `worker_loop` stands, with the value loaded last. -/
inductive Pc
  | loadLoops
  | storeLoops (v : UInt64)
  | loadTotal
  | storeTotal (v : UInt64)
deriving DecidableEq

/-- The counters and the workers. `rounds` is history: how often a worker has come round. -/
structure State (L : Type*) where
  total : UInt64
  loops : L → UInt64
  pc : L → Pc
  rounds : L → ℕ

/-- The state the workers are launched in. -/
def State.init {L : Type*} : State L := ⟨0, fun _ => 0, fun _ => .loadLoops, fun _ => 0⟩

variable {L : Type*} [DecidableEq L]

/-- One turn of the lcore's `worker_loop`: one access of memory. -/
def workerLoop (l : L) (s : State L) : State L :=
  match s.pc l with
  | .loadLoops => { s with pc := Function.update s.pc l (.storeLoops (s.loops l)) }
  | .storeLoops v =>
      { s with
        loops := Function.update s.loops l (v + 1)
        pc := Function.update s.pc l .loadTotal }
  | .loadTotal => { s with pc := Function.update s.pc l (.storeTotal s.total) }
  | .storeTotal v =>
      { s with
        total := v + 1
        pc := Function.update s.pc l .loadLoops
        rounds := Function.update s.rounds l (s.rounds l + 1) }

/-- The state the lcores' turns lead to. -/
def reached (turns : List L) : State L := run workerLoop turns State.init

/-- A value in the answer to a command. -/
inductive TelValue
  | string (text : String)
  | uint (value : UInt64)
deriving DecidableEq

/-- `adv_summary_handler`: `g_start_tsc` and the readings of the clock are the environment's. -/
def advSummaryHandler (startTsc now hz lcoreCount : UInt64) (s : State L) :
    List (String × TelValue) :=
  let uptimeSec := if hz ≠ 0 then (now - startTsc) / hz else 0
  [("app", .string "advanced-telemetry"), ("uptime_sec", .uint uptimeSec),
    ("lcore_count", .uint lcoreCount), ("total_loops", .uint s.total)]

/-- The number under a key of an answer. -/
def uintOf (key : String) (answer : List (String × TelValue)) : Option UInt64 :=
  match answer.lookup key with
  | some (.uint v) => some v
  | _ => none

/-- `adv_lcore_stats_handler`: the counters in the order of the lcores. Before each is read
the workers have the turns listed with it. -/
def advLcoreStatsHandler : List (List L × L) → State L → List UInt64
  | [], _ => []
  | (turns, l) :: reads, s =>
      let s' := run workerLoop turns s
      s'.loops l :: advLcoreStatsHandler reads s'

/-! ### The counters of the lcores -/

/-- What the lcore's counter holds: its rounds, and the one under way once it is stored. -/
def State.LcoreExact (l : L) (s : State L) : Prop :=
  match s.pc l with
  | .loadLoops => s.loops l = UInt64.ofNat (s.rounds l)
  | .storeLoops v => s.loops l = UInt64.ofNat (s.rounds l) ∧ v = s.loops l
  | .loadTotal | .storeTotal _ => s.loops l = UInt64.ofNat (s.rounds l + 1)

/-- The worker has counted its round for its lcore and not in the total yet. -/
def Pc.halfCounted : Pc → Bool
  | .loadLoops | .storeLoops _ => false
  | .loadTotal | .storeTotal _ => true

/-- The rounds of the lcore, the one under way included. -/
def State.started (s : State L) (l : L) : ℕ :=
  s.rounds l + if s.pc l = .loadLoops then 0 else 1

/-- A turn of another lcore leaves the counter and its worker alone. -/
lemma workerLoop_of_ne {l k : L} (hne : k ≠ l) (s : State L) :
    (workerLoop l s).loops k = s.loops k ∧ (workerLoop l s).pc k = s.pc k ∧
    (workerLoop l s).rounds k = s.rounds k := by
  unfold workerLoop
  split <;> simp [Function.update_of_ne hne]

/-- **No round of an lcore is lost in its own counter.** -/
lemma workerLoop_lcoreExact (l k : L) {s : State L} (h : s.LcoreExact k) :
    (workerLoop l s).LcoreExact k := by
  by_cases hkl : k = l
  · subst hkl
    unfold State.LcoreExact at h
    cases hpc : s.pc k with
    | loadLoops =>
        simp only [hpc] at h
        simpa [State.LcoreExact, workerLoop, hpc] using h
    | storeLoops v =>
        simp only [hpc] at h
        simp [State.LcoreExact, workerLoop, hpc, h.2, h.1, UInt64.ofNat_add]
    | loadTotal | storeTotal v =>
        simp only [hpc] at h
        simpa [State.LcoreExact, workerLoop, hpc] using h
  · obtain ⟨hloops, hpc, hrounds⟩ := workerLoop_of_ne hkl s
    unfold State.LcoreExact at h ⊢
    rw [hloops, hpc, hrounds]
    exact h

lemma lcoreExact_run {s : State L} (h : ∀ k, s.LcoreExact k) (turns : List L) (k : L) :
    (run workerLoop turns s).LcoreExact k :=
  run_invariant (P := fun s => ∀ k, s.LcoreExact k) workerLoop
    (fun l _ h k => workerLoop_lcoreExact l k (h k)) h turns k

/-! ### The total -/

/-- The total, and every value to be stored into it, is a number of rounds below the bound. -/
structure State.TotalBelow (s : State L) (bound : ℕ) : Prop where
  total : ∃ g < bound, s.total = UInt64.ofNat g
  pending : ∀ l v, s.pc l = .storeTotal v → ∃ w < bound, v = UInt64.ofNat w

/-- The lcore, if it is about to store the total, finds in it what it loaded. -/
def Undisturbed (l : L) (s : State L) : Prop := ∀ v, s.pc l = .storeTotal v → v = s.total

/-- What is stored is one round more than what was loaded, whatever it replaces. -/
lemma totalBelow_storeTotal {l : L} {s : State L} {v : UInt64} {bound w : ℕ}
    (hpc : s.pc l = .storeTotal v) (hw : w < bound) (hv : v = UInt64.ofNat w)
    (h : ∀ k v, s.pc k = .storeTotal v → ∃ w < bound + 1, v = UInt64.ofNat w) :
    (workerLoop l s).TotalBelow (bound + 1) := by
  refine ⟨⟨w + 1, by omega, ?_⟩, ?_⟩
  · simp [workerLoop, hpc, hv, UInt64.ofNat_add]
  · intro k u hk
    by_cases hkl : k = l
    · subst hkl
      simp [workerLoop, hpc] at hk
    · rw [(workerLoop_of_ne hkl s).2.1] at hk
      exact h k u hk

variable [Fintype L]

/-- The rounds of all the workers. -/
def State.allRounds (s : State L) : ℕ := ∑ l, s.rounds l

/-- A turn that stores the total ends a round. -/
lemma allRounds_storeTotal {l : L} {s : State L} {v : UInt64} (hpc : s.pc l = .storeTotal v) :
    (workerLoop l s).allRounds = s.allRounds + 1 := by
  simp only [State.allRounds, workerLoop, hpc]
  rw [Finset.sum_update_of_mem (Finset.mem_univ l), ← Finset.add_sum_erase _ _ (Finset.mem_univ l),
    Finset.sdiff_singleton_eq_erase]
  omega

/-- Every other turn leaves the rounds and the total as they are. -/
lemma allRounds_of_not_storeTotal {l : L} {s : State L} (hpc : ∀ v, s.pc l ≠ .storeTotal v) :
    (workerLoop l s).allRounds = s.allRounds ∧ (workerLoop l s).total = s.total := by
  cases h : s.pc l with
  | storeTotal v => exact absurd h (hpc v)
  | loadLoops | storeLoops | loadTotal => simp [State.allRounds, workerLoop, h]

/-- Every update has arrived so far. -/
def State.Exact (s : State L) : Prop :=
  s.total = UInt64.ofNat s.allRounds ∧ s.TotalBelow (s.allRounds + 1)

/-- Some update was lost, and nothing still to be stored brings it back. -/
def State.Behind (s : State L) : Prop := s.TotalBelow s.allRounds

/-- A worker that does not store the total loads at most what is there. -/
lemma totalBelow_of_not_storeTotal {l : L} {s : State L} {bound : ℕ}
    (hpc : ∀ v, s.pc l ≠ .storeTotal v) (h : s.TotalBelow bound) :
    (workerLoop l s).TotalBelow bound := by
  refine ⟨by rw [(allRounds_of_not_storeTotal hpc).2]; exact h.total, ?_⟩
  intro k u hk
  by_cases hkl : k = l
  · subst hkl
    cases hown : s.pc k with
    | loadLoops | storeLoops => simp [workerLoop, hown] at hk
    | loadTotal =>
        have hu : s.total = u := by simpa [workerLoop, hown] using hk
        exact hu ▸ h.total
    | storeTotal v => exact absurd hown (hpc v)
  · rw [(workerLoop_of_ne hkl s).2.1] at hk
    exact h.pending k u hk

/-- **What is lost stays lost.** -/
lemma workerLoop_behind (l : L) {s : State L} (h : s.Behind) : (workerLoop l s).Behind := by
  by_cases hstore : ∃ v, s.pc l = .storeTotal v
  · obtain ⟨v, hpc⟩ := hstore
    obtain ⟨w, hw, hv⟩ := h.pending l v hpc
    rw [State.Behind, allRounds_storeTotal hpc]
    refine totalBelow_storeTotal hpc hw hv ?_
    intro k u hk
    obtain ⟨x, hx, hu⟩ := h.pending k u hk
    exact ⟨x, by omega, hu⟩
  · have hpc : ∀ v, s.pc l ≠ .storeTotal v := fun v hv => hstore ⟨v, hv⟩
    rw [State.Behind, (allRounds_of_not_storeTotal hpc).1]
    exact totalBelow_of_not_storeTotal hpc h

/-- While nothing is lost, an undisturbed turn loses nothing. -/
lemma workerLoop_exact {l : L} {s : State L} (hl : Undisturbed l s) (h : s.Exact) :
    (workerLoop l s).Exact := by
  by_cases hstore : ∃ v, s.pc l = .storeTotal v
  · obtain ⟨v, hpc⟩ := hstore
    have hv : v = UInt64.ofNat s.allRounds := (hl v hpc).trans h.1
    refine ⟨?_, ?_⟩
    · rw [allRounds_storeTotal hpc, UInt64.ofNat_add, ← hv]
      simp [workerLoop, hpc]
    · rw [allRounds_storeTotal hpc]
      refine totalBelow_storeTotal hpc (Nat.lt_succ_self _) hv ?_
      intro k u hk
      obtain ⟨x, hx, hu⟩ := h.2.pending k u hk
      exact ⟨x, by omega, hu⟩
  · have hpc : ∀ v, s.pc l ≠ .storeTotal v := fun v hv => hstore ⟨v, hv⟩
    obtain ⟨hrounds, htotal⟩ := allRounds_of_not_storeTotal hpc
    refine ⟨by rw [hrounds, htotal]; exact h.1, ?_⟩
    rw [hrounds]
    exact totalBelow_of_not_storeTotal hpc h.2

/-- A disturbed store is where the total falls behind. -/
lemma workerLoop_disturbed {l : L} {s : State L} (hl : ¬Undisturbed l s) (h : s.Exact) :
    (workerLoop l s).Behind := by
  simp only [Undisturbed, not_forall] at hl
  obtain ⟨v, hpc, hne⟩ := hl
  obtain ⟨w, hw, hv⟩ := h.2.pending l v hpc
  have hlt : w < s.allRounds := by
    have hnot : w ≠ s.allRounds := fun heq => hne (by rw [hv, heq, h.1])
    omega
  rw [State.Behind, allRounds_storeTotal hpc]
  exact totalBelow_storeTotal hpc hlt hv h.2.pending

omit [DecidableEq L] in
lemma exact_init : (State.init : State L).Exact := by
  have hzero : (State.init : State L).allRounds = 0 := Finset.sum_const_zero
  refine ⟨by rw [hzero]; rfl, ⟨0, by omega, rfl⟩, ?_⟩
  simp [State.init]

/-- In every run the total is exact or behind. -/
lemma workerLoop_exact_or_behind (l : L) {s : State L} (h : s.Exact ∨ s.Behind) :
    (workerLoop l s).Exact ∨ (workerLoop l s).Behind := by
  rcases h with h | h
  · by_cases hl : Undisturbed l s
    · exact Or.inl (workerLoop_exact hl h)
    · exact Or.inr (workerLoop_disturbed hl h)
  · exact Or.inr (workerLoop_behind l h)

/-- The workers come round at most as often as they have turns. -/
lemma allRounds_run_le (turns : List L) (s : State L) :
    (run workerLoop turns s).allRounds ≤ s.allRounds + turns.length := by
  induction turns generalizing s with
  | nil => exact Nat.le_refl _
  | cons l turns ih =>
      have hrest := ih (workerLoop l s)
      have hstep : (workerLoop l s).allRounds ≤ s.allRounds + 1 := by
        by_cases hstore : ∃ v, s.pc l = .storeTotal v
        · exact (allRounds_storeTotal hstore.choose_spec).le
        · rw [(allRounds_of_not_storeTotal fun v hv => hstore ⟨v, hv⟩).1]
          exact Nat.le_succ _
      rw [run_cons, List.length_cons]
      omega

/-- **Nothing is lost exactly when no store is disturbed**, and otherwise the total is short
of the rounds. -/
lemma total_eq_allRounds_iff {turns : List L} (hlen : turns.length < 2 ^ 64) :
    (reached turns).total.toNat ≤ (reached turns).allRounds ∧
    ((reached turns).total.toNat = (reached turns).allRounds
      ↔ StepsMeet workerLoop Undisturbed turns State.init) := by
  have hzero : (State.init : State L).allRounds = 0 := Finset.sum_const_zero
  have hrounds : (reached turns).allRounds < 2 ^ 64 := by
    have hle := allRounds_run_le turns (State.init : State L)
    rw [reached]
    omega
  have hexact : (reached turns).Exact →
      (reached turns).total.toNat = (reached turns).allRounds := by
    intro h
    rw [h.1, UInt64.toNat_ofNat_of_lt' hrounds]
  have hbehind : (reached turns).Behind →
      (reached turns).total.toNat < (reached turns).allRounds := by
    rintro ⟨⟨g, hg, htotal⟩, -⟩
    rw [htotal, UInt64.toNat_ofNat_of_lt' (hg.trans hrounds)]
    exact hg
  refine ⟨?_, ?_, ?_⟩
  · have hend : (reached turns).Exact ∨ (reached turns).Behind :=
      run_invariant (P := fun s => s.Exact ∨ s.Behind) workerLoop
        (fun l _ => workerLoop_exact_or_behind l) (Or.inl exact_init) turns
    rcases hend with h | h
    · exact (hexact h).le
    · exact (hbehind h).le
  · intro heq
    refine stepsMeet_of_final (P := fun s => s.Exact ∨ s.Behind) (B := State.Behind)
      (fun l _ => workerLoop_exact_or_behind l) (fun l _ _ h => workerLoop_behind l h) ?_
      (Or.inl exact_init) (fun h => (hbehind h).ne heq)
    rintro l s (h | h) hl
    · exact workerLoop_disturbed hl h
    · exact workerLoop_behind l h
  · intro hmeet
    exact hexact (run_invariant_of_stepsMeet (fun l s hl h => workerLoop_exact hl h) hmeet
      exact_init)

/-! ### What a client reads -/

omit [Fintype L] in
/-- The rounds of an lcore only grow, and with the one under way by no more than the turns. -/
lemma started_run (turns : List L) (s : State L) (k : L) :
    s.rounds k ≤ (run workerLoop turns s).rounds k ∧
    (run workerLoop turns s).started k ≤ s.started k + turns.length := by
  induction turns generalizing s with
  | nil => exact ⟨Nat.le_refl _, Nat.le_refl _⟩
  | cons l turns ih =>
      obtain ⟨hrounds, hstarted⟩ := ih (workerLoop l s)
      have hstep : s.rounds k ≤ (workerLoop l s).rounds k ∧
          (workerLoop l s).started k ≤ s.started k + 1 := by
        by_cases hkl : k = l
        · subst hkl
          cases hpc : s.pc k <;> simp [workerLoop, State.started, hpc]
        · obtain ⟨-, hpc, hsame⟩ := workerLoop_of_ne hkl s
          simp [State.started, hpc, hsame]
      rw [run_cons, List.length_cons]
      omega

omit [DecidableEq L] [Fintype L] in
/-- The number in the lcore's counter. -/
lemma State.LcoreExact.loops_toNat {s : State L} {l : L} (h : s.LcoreExact l)
    (hlt : s.started l < 2 ^ 64) :
    (s.loops l).toNat = s.rounds l + if (s.pc l).halfCounted then 1 else 0 := by
  unfold State.LcoreExact at h
  unfold State.started at hlt
  have hrounds : s.rounds l < 2 ^ 64 := by omega
  cases hpc : s.pc l with
  | loadLoops =>
      simp only [hpc] at h
      rw [h, UInt64.toNat_ofNat_of_lt' hrounds]
      rfl
  | storeLoops v =>
      simp only [hpc] at h
      rw [h.1, UInt64.toNat_ofNat_of_lt' hrounds]
      rfl
  | loadTotal | storeTotal v =>
      simp only [hpc, reduceCtorEq, if_false] at h hlt
      rw [h, UInt64.toNat_ofNat_of_lt' hlt]
      rfl

omit [Fintype L] in
/-- The counters read one after the other, with turns of the workers between, come to at
least the rounds there were when the first was read. -/
lemma sum_rounds_le_stats (reads : List (List L × L)) {s : State L} (h : ∀ k, s.LcoreExact k)
    (hlen : ∀ k, s.started k + (reads.flatMap Prod.fst).length < 2 ^ 64) :
    ((reads.map Prod.snd).map s.rounds).sum
      ≤ ((advLcoreStatsHandler reads s).map UInt64.toNat).sum := by
  induction reads generalizing s with
  | nil => exact Nat.le_refl _
  | cons read reads ih =>
      obtain ⟨turns, l⟩ := read
      simp only [List.flatMap_cons, List.length_append] at hlen
      have hthen := lcoreExact_run h turns
      have hstarted := fun k => (started_run turns s k).2
      have hrounds := fun k => (started_run turns s k).1
      have hrest := ih hthen fun k => by have := hlen k; have := hstarted k; omega
      have hhead := (hthen l).loops_toNat (by have := hlen l; have := hstarted l; omega)
      have hmono : ((reads.map Prod.snd).map s.rounds).sum
          ≤ ((reads.map Prod.snd).map (run workerLoop turns s).rounds).sum :=
        List.sum_le_sum fun k _ => hrounds k
      have hl := hrounds l
      simp only [advLcoreStatsHandler, List.map_cons, List.sum_cons]
      omega

omit [Fintype L] in
/-- With no turns between the reads they are those of one state. -/
lemma stats_eq_of_still {reads : List (List L × L)} (hstill : ∀ read ∈ reads, read.1 = [])
    (s : State L) : advLcoreStatsHandler reads s = (reads.map Prod.snd).map s.loops := by
  induction reads with
  | nil => rfl
  | cons read reads ih =>
      obtain ⟨turns, l⟩ := read
      have hturns : turns = [] := hstill _ List.mem_cons_self
      subst hturns
      simp only [advLcoreStatsHandler, run_nil, List.map_cons]
      rw [ih fun r hr => hstill r (List.mem_cons_of_mem _ hr)]

/-- A sum over the lcores, in whatever order they are listed. -/
lemma sum_lcores {lcores : List L} (hnodup : lcores.Nodup) (hall : ∀ l, l ∈ lcores) (f : L → ℕ) :
    (lcores.map f).sum = ∑ l, f l := by
  rw [← List.sum_toFinset f hnodup]
  congr 1
  exact Finset.eq_univ_iff_forall.mpr fun l => List.mem_toFinset.mpr (hall l)

/-- **The total against the counters.** A client reads the total, and then the counters of
all the lcores, with any turns of the workers before and between, fewer than `2 ^ 64` in all,
each of which takes effect in the order of the program. The counters come to at least the
total. When nothing runs between the reads the two agree exactly when no store of the total
was disturbed and no worker stands between its two increments. -/
theorem summary_within_stats (turns : List L) (reads : List (List L × L))
    (hnodup : (reads.map Prod.snd).Nodup) (hall : ∀ l, l ∈ reads.map Prod.snd)
    (hlen : turns.length + (reads.flatMap Prod.fst).length < 2 ^ 64)
    (startTsc now hz lcoreCount : UInt64) :
    ∃ total,
      uintOf "total_loops" (advSummaryHandler startTsc now hz lcoreCount (reached turns))
        = some total ∧
      total.toNat ≤ ((advLcoreStatsHandler reads (reached turns)).map UInt64.toNat).sum ∧
      ((∀ read ∈ reads, read.1 = []) →
        (total.toNat = ((advLcoreStatsHandler reads (reached turns)).map UInt64.toNat).sum
          ↔ StepsMeet workerLoop Undisturbed turns State.init ∧
            ∀ l, ((reached turns).pc l).halfCounted = false)) := by
  have hexact := lcoreExact_run (s := (State.init : State L)) (fun _ => rfl) turns
  have hstarted : ∀ k, (reached turns).started k ≤ turns.length := by
    intro k
    have hle := (started_run turns State.init k).2
    rw [reached]
    simpa [State.started, State.init] using hle
  have hshort : turns.length < 2 ^ 64 := by omega
  obtain ⟨hle, hiff⟩ := total_eq_allRounds_iff hshort
  have hsum : ((reads.map Prod.snd).map (reached turns).rounds).sum
      ≤ ((advLcoreStatsHandler reads (reached turns)).map UInt64.toNat).sum :=
    sum_rounds_le_stats reads hexact fun k => lt_of_le_of_lt (by have := hstarted k; omega) hlen
  refine ⟨(reached turns).total, rfl, ?_, ?_⟩
  · rw [sum_lcores hnodup hall] at hsum
    exact hle.trans hsum
  · intro hstill
    have hloops : ∀ l, ((reached turns).loops l).toNat
        = (reached turns).rounds l + if ((reached turns).pc l).halfCounted then 1 else 0 :=
      fun l => (hexact l).loops_toNat (lt_of_le_of_lt (hstarted l) (by omega))
    have hstats : ((advLcoreStatsHandler reads (reached turns)).map UInt64.toNat).sum
        = (reached turns).allRounds
          + ∑ l, if ((reached turns).pc l).halfCounted then 1 else 0 := by
      rw [stats_eq_of_still hstill, List.map_map, sum_lcores hnodup hall, State.allRounds,
        ← Finset.sum_add_distrib]
      exact Finset.sum_congr rfl fun l _ => hloops l
    have hhalf : (∑ l, if ((reached turns).pc l).halfCounted then 1 else 0) = 0
        ↔ ∀ l, ((reached turns).pc l).halfCounted = false := by
      simp
    rw [hstats, ← hiff, ← hhalf]
    omega

/-- Two workers in step, each loading the total before the other stores it: of two rounds
the total counts one. -/
theorem summary_within_stats_in_step :
    advLcoreStatsHandler [([], false), ([], true)]
        (reached [false, true, false, true, false, true, false, true]) = [1, 1] ∧
      ¬StepsMeet workerLoop Undisturbed [false, true, false, true, false, true, false, true]
        State.init := by
  refine ⟨by decide, ?_⟩
  obtain ⟨total, hread, -, hiff⟩ :=
    summary_within_stats [false, true, false, true, false, true, false, true]
      [([], false), ([], true)] (by decide) (by decide) (by decide) 0 0 0 0
  have htotal : total = 1 := by
    have hone : (reached [false, true, false, true, false, true, false, true]).total = 1 := by
      decide
    rw [← hone]
    exact (Option.some.inj hread).symm
  intro hmeet
  have heq := (hiff (by decide)).mpr ⟨hmeet, by decide⟩
  rw [htotal] at heq
  revert heq
  decide

end DpdkStarter.Telemetry
