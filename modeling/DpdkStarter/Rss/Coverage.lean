import DpdkStarter.Rss.Launch

/-!
Which receive queues are polled once all loops of `main` run.

The workers and then the main lcore take the queues in order, one each, so the
queues polled are the first ones, as many as there are lcores; whether those are
all the queues that were configured is a question of their number.

* `map_snd_polls`: the queues that are polled, and `nodup_lcores_polls`: each
  lcore is launched at most once.
* `polledOnce_iff`: a queue is polled by exactly one lcore when its number is
  less than that of the lcores.
* `adaptive_covers`: the program that asks the device and counts its lcores.
* `fixed_covers_iff`: the program with `RX_QUEUES` queues.
-/

namespace DpdkStarter.Rss

variable {n q : UInt16} {l : Lcores} {env : Env} {launched : Launched}

/-! ### The launch loop -/

/-- From queue `k` on the loop launches one worker on each queue, while there are
workers and queues. -/
lemma launchLoop_ofNat (ws : List ℕ) {k : ℕ} (hk : k ≤ n.toNat) :
    (launchLoop n ws (.ofNat k)).1.map Prod.snd
        = (List.range' k (min ws.length (n.toNat - k))).map UInt16.ofNat ∧
      (launchLoop n ws (.ofNat k)).2 = .ofNat (k + min ws.length (n.toNat - k)) := by
  have hn := n.toNat_lt
  induction ws generalizing k with
  | nil => simp [launchLoop]
  | cons w ws ih =>
      have hval : (UInt16.ofNat k).toNat = k := by
        rw [UInt16.toNat_ofNat']
        omega
      rw [launchLoop]
      by_cases hlast : UInt16.ofNat k ≥ n
      · have hkn : n.toNat - k = 0 := by
          rw [ge_iff_le, UInt16.le_iff_toNat_le, hval] at hlast
          omega
        rw [if_pos hlast, hkn]
        simp
      · have hkn : k < n.toNat := by
          rw [ge_iff_le, UInt16.le_iff_toNat_le, hval] at hlast
          omega
        have hsucc : UInt16.ofNat k + 1 = UInt16.ofNat (k + 1) := (UInt16.ofNat_add k 1).symm
        have hmin : min (w :: ws).length (n.toNat - k)
            = min ws.length (n.toNat - (k + 1)) + 1 := by
          rw [List.length_cons]
          omega
        obtain ⟨hqueues, hlastq⟩ := ih (k := k + 1) hkn
        rw [if_neg hlast, hsucc, hmin]
        refine ⟨?_, ?_⟩
        · rw [List.map_cons, hqueues, List.range'_succ, List.map_cons]
        · rw [hlastq]
          congr 1
          omega

/-- The launched workers are the first ones, in order. -/
lemma launchLoop_lcores (ws : List ℕ) (q : UInt16) :
    ((launchLoop n ws q).1.map Prod.fst).Sublist ws := by
  induction ws generalizing q with
  | nil => exact List.Sublist.slnil
  | cons w ws ih =>
      rw [launchLoop]
      split
      · exact List.nil_sublist _
      · exact (ih (q + 1)).cons_cons w

/-- **The queues that are polled**: the first ones, as many as there are lcores. -/
lemma map_snd_polls (n : UInt16) (l : Lcores) :
    (polls n l).map Prod.snd
      = (List.range (min n.toNat l.count)).map UInt16.ofNat := by
  have hn := n.toNat_lt
  obtain ⟨hqueues, hlast⟩ := launchLoop_ofNat (n := n) l.workers (Nat.zero_le _)
  rw [Nat.sub_zero] at hqueues hlast
  rw [Nat.zero_add] at hlast
  have hval : (UInt16.ofNat (min l.workers.length n.toNat)).toNat
      = min l.workers.length n.toNat := by
    rw [UInt16.toNat_ofNat']
    omega
  have hloop : (launchLoop n l.workers 0).1.map Prod.snd
      = (List.range (min l.workers.length n.toNat)).map UInt16.ofNat := by
    rw [List.range_eq_range']
    exact hqueues
  have hnext : (launchLoop n l.workers 0).2 = .ofNat (min l.workers.length n.toNat) := hlast
  simp only [polls, List.map_append, hloop, hnext, UInt16.lt_iff_toNat_lt, hval, Lcores.count]
  by_cases hmain : l.workers.length < n.toNat
  · -- the main lcore takes the queue after those of the workers
    have hmin : min l.workers.length n.toNat = l.workers.length := by omega
    have hcount : min n.toNat (l.workers.length + 1) = l.workers.length + 1 := by omega
    rw [hmin, hcount, if_pos hmain, List.range_succ, List.map_append]
    rfl
  · have hmin : min l.workers.length n.toNat = n.toNat := by omega
    have hcount : min n.toNat (l.workers.length + 1) = n.toNat := by omega
    rw [hmin, hcount, if_neg (lt_irrefl _), List.map_nil, List.append_nil]

/-- Each lcore is launched at most once. -/
lemma nodup_lcores_polls (n : UInt16) (l : Lcores) : ((polls n l).map Prod.fst).Nodup := by
  have hsub : ((polls n l).map Prod.fst).Sublist (l.workers ++ [l.main]) := by
    rw [polls, List.map_append]
    refine (launchLoop_lcores _ _).append ?_
    split
    · exact List.Sublist.refl _
    · exact List.nil_sublist _
  exact hsub.nodup (List.nodup_append_comm.mp l.nodup)

/-! ### Coverage -/

/-- A queue is one of the first `k` exactly when its number is less than `k`. -/
lemma mem_range_map_ofNat {k : ℕ} (hk : k ≤ n.toNat) :
    q ∈ (List.range k).map UInt16.ofNat ↔ q.toNat < k := by
  have hn := n.toNat_lt
  rw [List.mem_map]
  constructor
  · rintro ⟨j, hj, rfl⟩
    rw [UInt16.toNat_ofNat']
    have hjk := List.mem_range.mp hj
    omega
  · intro hq
    exact ⟨q.toNat, List.mem_range.mpr hq, UInt16.ofNat_toNat⟩

/-- The queues that were configured. -/
lemma mem_queues : q ∈ queues n ↔ q < n := by
  rw [queues, mem_range_map_ofNat le_rfl, UInt16.lt_iff_toNat_lt]

/-- **A queue is polled by exactly one lcore** when its number is less than that of
the queues and that of the lcores. -/
lemma polledOnce_iff :
    (∃! lcore, (lcore, q) ∈ polls n l) ↔ q.toNat < min n.toNat l.count := by
  have hle : min n.toNat l.count ≤ n.toNat := Nat.min_le_left ..
  have hmem : q ∈ (polls n l).map Prod.snd ↔ q.toNat < min n.toNat l.count := by
    rw [map_snd_polls, mem_range_map_ofNat hle]
  have hnodup : ((polls n l).map Prod.snd).Nodup := by
    rw [map_snd_polls]
    refine List.Nodup.map_on ?_ List.nodup_range
    intro i hi j hj heq
    have hn := n.toNat_lt
    have hin := List.mem_range.mp hi
    have hjn := List.mem_range.mp hj
    have hval := congrArg UInt16.toNat heq
    rw [UInt16.toNat_ofNat', UInt16.toNat_ofNat'] at hval
    omega
  rw [← hmem, List.mem_map]
  constructor
  · rintro ⟨lcore, hpoll, -⟩
    exact ⟨(lcore, q), hpoll, rfl⟩
  · rintro ⟨⟨lcore, q'⟩, hpoll, rfl⟩
    refine ⟨lcore, hpoll, ?_⟩
    intro lcore' hpoll'
    have heq := List.inj_on_of_nodup_map hnodup hpoll' hpoll rfl
    exact congrArg Prod.fst heq

/-- Only queues that were configured are polled. -/
lemma mem_queues_of_mem_polls {p : ℕ × UInt16} (hp : p ∈ polls n l) : p.2 ∈ queues n := by
  have hle : min n.toNat l.count ≤ n.toNat := Nat.min_le_left ..
  have hmem : p.2 ∈ (polls n l).map Prod.snd := List.mem_map_of_mem hp
  rw [map_snd_polls, mem_range_map_ofNat hle] at hmem
  rw [mem_queues, UInt16.lt_iff_toNat_lt]
  omega

/-! ### The two programs -/

/-- The fix-up of a queue count. -/
lemma toNat_fixup (q : UInt16) : (if q = 0 then 1 else q).toNat = max q.toNat 1 := by
  by_cases hq : q = 0
  · rw [if_pos hq, hq]
    rfl
  · have hpos : q.toNat ≠ 0 := by
      intro hzero
      exact hq (UInt16.toNat_inj.mp hzero)
    rw [if_neg hq]
    omega

lemma toNat_ite_lt (q r : UInt16) : (if q < r then q else r).toNat = min q.toNat r.toNat := by
  split
  · rename_i hlt
    rw [UInt16.lt_iff_toNat_lt] at hlt
    omega
  · rename_i hle
    rw [UInt16.lt_iff_toNat_lt] at hle
    omega

/-- There are no more queues than lcores. -/
lemma usedRxQueues_le (env : Env) :
    (Adaptive.usedRxQueues env).toNat ≤ env.lcores.count := by
  -- truncated to 16 bits, the number of workers can only get smaller
  have hdesired : (UInt16.ofNat (env.lcores.count - 1)).toNat ≤ env.lcores.count - 1 := by
    rw [UInt16.toNat_ofNat']
    exact Nat.mod_le _ _
  have hcount : 1 ≤ env.lcores.count := Nat.le_add_left 1 _
  simp only [Adaptive.usedRxQueues, toNat_fixup, toNat_ite_lt]
  omega

/-- When the loops of the adaptive program run, they run on the queues it has set up. -/
lemma Adaptive.launched_of_main (h : Adaptive.main env = .ok launched) :
    launched = ⟨usedRxQueues env > 1, queues (usedRxQueues env),
      polls (usedRxQueues env) env.lcores⟩ := by
  simp only [Adaptive.main] at h
  split_ifs at h
  exact (Except.ok.inj h).symm

/-- So do those of the fixed program. -/
lemma Fixed.launched_of_main (h : Fixed.main env = .ok launched) :
    launched = ⟨true, queues rxQueues, polls rxQueues env.lcores⟩ := by
  simp only [Fixed.main] at h
  split_ifs at h
  exact (Except.ok.inj h).symm

/-- **The adaptive program**, for every number of lcores and every limit of the
device: each queue it has configured is polled by exactly one lcore, an lcore
polls configured queues only, and no lcore is launched twice. -/
theorem adaptive_covers (h : Adaptive.main env = .ok launched) :
    launched.configured = queues (Adaptive.usedRxQueues env) ∧
      (∀ q ∈ launched.configured, ∃! lcore, (lcore, q) ∈ launched.polls) ∧
      (∀ p ∈ launched.polls, p.2 ∈ launched.configured) ∧
      (launched.polls.map Prod.fst).Nodup := by
  rw [Adaptive.launched_of_main h]
  refine ⟨rfl, ?_, fun p hp => mem_queues_of_mem_polls hp, nodup_lcores_polls _ _⟩
  intro q hq
  have hused := usedRxQueues_le env
  rw [mem_queues, UInt16.lt_iff_toNat_lt] at hq
  exact polledOnce_iff.mpr (by omega)

/-- Three lcores and a device of two queues. -/
def twoQueueEnv : Env where
  lcores := ⟨0, [1, 2], by decide⟩
  ealInit := 1
  nbPorts := 1
  mbufPool := true
  maxRxQueues := 2
  configure := 0
  queueSetup := fun _ => 0
  start := 0

/-- On them each of the two queues has a worker. -/
theorem adaptive_covers_twoQueueEnv : ∃! lcore, (lcore, 1) ∈ [(1, (0 : UInt16)), (2, 1)] :=
  (@adaptive_covers twoQueueEnv ⟨true, [0, 1], [(1, 0), (2, 1)]⟩ rfl).2.1 1 (by decide)

/-- **The fixed program** covers the `RX_QUEUES` queues it has configured exactly
when there are at least three workers: the main lcore can take one queue, and not
all that the workers leave. -/
theorem fixed_covers_iff (h : Fixed.main env = .ok launched) :
    (∀ q ∈ launched.configured, ∃! lcore, (lcore, q) ∈ launched.polls)
      ↔ 3 ≤ env.lcores.workers.length := by
  rw [Fixed.launched_of_main h]
  simp only [polledOnce_iff, mem_queues, UInt16.lt_iff_toNat_lt, Lcores.count]
  have hqueues : Fixed.rxQueues.toNat = 4 := rfl
  constructor
  · intro hall
    have hthree := hall 3 (by decide)
    have hval : (3 : UInt16).toNat = 3 := rfl
    omega
  · intro hworkers q hq
    omega

/-- With three workers the main lcore takes the last queue. -/
theorem fixed_covers_threeWorkers :
    ∃! lcore, (lcore, 3) ∈ [(1, (0 : UInt16)), (2, 1), (3, 2), (0, 3)] :=
  (@fixed_covers_iff { twoQueueEnv with lcores := ⟨0, [1, 2, 3], by decide⟩ }
    ⟨true, [0, 1, 2, 3], [(1, 0), (2, 1), (3, 2), (0, 3)]⟩ rfl).mpr (by decide) 3 (by decide)

/-- With one worker two queues are polled by nobody. -/
theorem fixed_starves_queues :
    Fixed.main { twoQueueEnv with lcores := ⟨0, [1], by decide⟩ }
        = .ok ⟨true, [0, 1, 2, 3], [(1, 0), (0, 1)]⟩ ∧
      ¬∀ q ∈ [(0 : UInt16), 1, 2, 3], ∃! lcore, (lcore, q) ∈ [(1, (0 : UInt16)), (0, 1)] := by
  refine ⟨rfl, ?_⟩
  intro hall
  obtain ⟨lcore, hpoll, -⟩ := hall 3 (by decide)
  simp at hpoll

end DpdkStarter.Rss
