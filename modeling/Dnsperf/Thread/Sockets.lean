import Mathlib.Algebra.BigOperators.Group.List.Basic
import Mathlib.Data.List.Nodup
import Dnsperf.Thread.Shares

/-!
# Dnsperf.Thread.Sockets

**The sockets of all threads.** `main` initialises one thread after another, and each opens its
share of the clients. It numbers its sockets from where the threads before it have stopped, by
adding up theirs (`initSocks`), and `perf_net_opensocket` adds the number to the local port if one
was given.

The shares add up to the clients (`sum_perThread`), so the numbers are those from 0 on, in order
(`initThreads_eq`), and no two sockets get the same port.
-/

namespace Dnsperf.Thread

/-! ### `threadinfo_init` and `perf_net_opensocket` -/

/-- `threadinfo_init`, for the sockets of the next thread: how many there are, and the offsets it
passes to `perf_net_opensocket`. `nsocks` has the numbers of sockets of the threads before it. -/
def initSocks (clients nthreads : Nat) (nsocks : List Nat) : Nat × List Nat :=
  let share := perThread clients nthreads nsocks.length
  let own := if maxSockets < share then maxSockets else share
  let socketOffset := nsocks.foldl (fun offset n => (offset + n) % 2 ^ 32) 0
  (own, (List.range own).map fun i => (socketOffset + i) % 2 ^ 32)

/-- The loop of `main`, over the first `k` threads: their numbers of sockets, and all offsets in
the order in which they are passed. -/
def initThreads (clients nthreads : Nat) : Nat → List Nat × List Nat
  | 0 => ([], [])
  | k + 1 =>
      let (nsocks, offsets) := initThreads clients nthreads k
      let (own, more) := initSocks clients nthreads nsocks
      (nsocks ++ [own], offsets ++ more)

/-- `perf_net_opensocket`, for the port the socket is bound to; `none` is `perf_log_fatal`. -/
def opensocketPort (localPort offset : Nat) : Option Nat :=
  if localPort ≠ 0 ∧ offset ≠ 0 then
    -- an `unsigned int` is added to an `int`
    let port : Int := ((localPort + offset : Nat) : Int).bmod (2 ^ 32)
    if 0xFFFF ≤ port then none else some (port % 2 ^ 16).toNat
  else some localPort

/-- The ports of the sockets that are opened. After `perf_log_fatal` there are no more. -/
def openedPorts (localPort : Nat) : List Nat → List Nat
  | [] => []
  | offset :: offsets =>
      match opensocketPort localPort offset with
      | none => []
      | some port => port :: openedPorts localPort offsets

/-! ### The offsets -/

section Offsets

variable {total nthreads : Nat}

/-- The shares of the first `k` threads: they have one more each until nothing is left over. -/
theorem sum_perThread (htotal : total < 2 ^ 32) (k : Nat) :
    ((List.range k).map (perThread total nthreads)).sum =
      k * (total / nthreads) + min k (total % nthreads) := by
  induction k with
  | zero => simp
  | succ k ih =>
      rw [List.sum_range_succ, ih, perThread_eq htotal, Nat.succ_mul]
      split_ifs with hk <;> omega

/-- **The shares add up.** -/
theorem sum_perThread_all (htotal : total < 2 ^ 32) (hn : 1 ≤ nthreads) :
    ((List.range nthreads).map (perThread total nthreads)).sum = total := by
  have hmod := Nat.mod_lt total hn
  rw [sum_perThread htotal, Nat.min_eq_right hmod.le, Nat.mul_comm]
  exact Nat.div_add_mod' total nthreads

theorem sum_perThread_le (htotal : total < 2 ^ 32) (hn : 1 ≤ nthreads) {k : Nat}
    (hk : k ≤ nthreads) : ((List.range k).map (perThread total nthreads)).sum ≤ total := by
  have hmod := Nat.mod_lt total hn
  have hdiv := Nat.mul_le_mul_right (total / nthreads) hk
  have hsum := Nat.div_add_mod total nthreads
  rw [sum_perThread htotal]
  omega

theorem foldl_add_mod (nsocks : List Nat) {offset : Nat} (hoffset : offset < 2 ^ 32) :
    nsocks.foldl (fun offset n => (offset + n) % 2 ^ 32) offset =
      (offset + nsocks.sum) % 2 ^ 32 := by
  induction nsocks generalizing offset with
  | nil => exact (Nat.mod_eq_of_lt hoffset).symm
  | cons n nsocks ih =>
      rw [List.foldl_cons, ih (Nat.mod_lt _ (by decide)), Nat.mod_add_mod, List.sum_cons,
        Nat.add_assoc]

/-- **The offsets are those from 0 on**, in order, as long as no share is cut to
`MAX_SOCKETS`. -/
theorem initThreads_eq (htotal : total < 2 ^ 32) (hn : 1 ≤ nthreads)
    (hshare : ∀ i < nthreads, perThread total nthreads i ≤ maxSockets) {k : Nat}
    (hk : k ≤ nthreads) :
    initThreads total nthreads k = ((List.range k).map (perThread total nthreads),
      List.range ((List.range k).map (perThread total nthreads)).sum) := by
  induction k with
  | zero => rfl
  | succ k ih =>
      have hown : ¬ maxSockets < perThread total nthreads k := Nat.not_lt.mpr (hshare k hk)
      have hle := sum_perThread_le htotal hn hk
      rw [List.sum_range_succ] at hle
      rw [initThreads, ih (Nat.le_of_succ_le hk), List.sum_range_succ, List.range_succ,
        List.map_append]
      simp only [initSocks, List.length_map, List.length_range, if_neg hown,
        foldl_add_mod _ (by decide : 0 < 2 ^ 32), Nat.zero_add]
      generalize ((List.range k).map (perThread total nthreads)).sum = before at hle ⊢
      rw [List.range_add]
      refine congrArg (Prod.mk _) (congrArg _ (List.map_congr_left fun i hi => ?_))
      have hlt := List.mem_range.mp hi
      rw [Nat.mod_add_mod]
      exact Nat.mod_eq_of_lt (by omega)

end Offsets

/-! ### The ports -/

theorem opensocketPort_eq {localPort offset : Nat} (hport : localPort ≠ 0)
    (hlocal : localPort < 2 ^ 16) (hoffset : offset < 2 ^ 16) :
    opensocketPort localPort offset =
      if offset ≠ 0 ∧ 0xFFFF ≤ localPort + offset then none else some (localPort + offset) := by
  have hbmod : ((localPort + offset : Nat) : Int).bmod (2 ^ 32) = (localPort + offset : Nat) :=
    Int.bmod_eq_of_le (by omega) (by omega)
  unfold opensocketPort
  by_cases hzero : offset = 0
  · simp [hzero]
  · simp only [hport, hzero, ne_eq, not_false_eq_true, and_self, if_true, true_and, hbmod]
    by_cases hrange : 0xFFFF ≤ localPort + offset
    · rw [if_pos hrange, if_pos (by omega)]
    · have hmod : ((localPort + offset : Nat) : Int) % 2 ^ 16 = (localPort + offset : Nat) :=
        Int.emod_eq_of_lt (by omega) (by omega)
      rw [if_neg hrange, if_neg (by omega), hmod, Int.toNat_natCast]

/-- The ports go up with the offsets, until one is out of range. -/
theorem openedPorts_range' {localPort : Nat} (hport : localPort ≠ 0) (hlocal : localPort < 2 ^ 16)
    (n : Nat) {a : Nat} (ha : a < 2 ^ 16) :
    ∃ k, openedPorts localPort (List.range' a n) = (List.range' a k).map (localPort + ·) := by
  induction n generalizing a with
  | zero => exact ⟨0, rfl⟩
  | succ n ih =>
      rw [List.range'_succ, openedPorts, opensocketPort_eq hport hlocal ha]
      by_cases hrange : a ≠ 0 ∧ 0xFFFF ≤ localPort + a
      · rw [if_pos hrange]
        exact ⟨0, rfl⟩
      · obtain ⟨k, hk⟩ := ih (a := a + 1) (by omega)
        refine ⟨k + 1, ?_⟩
        rw [if_neg hrange, List.range'_succ, List.map_cons]
        exact congrArg _ hk

/-- **Explicit local ports do not collide.** -/
theorem nodup_openedPorts {localPort : Nat} (hport : localPort ≠ 0) (hlocal : localPort < 2 ^ 16)
    (n : Nat) : (openedPorts localPort (List.range n)).Nodup := by
  rw [List.range_eq_range']
  obtain ⟨k, hk⟩ := openedPorts_range' hport hlocal n (a := 0) (by decide)
  rw [hk]
  exact List.Nodup.map (fun a b h => Nat.add_left_cancel h) List.nodup_range'

/-- **Limits are split exactly**: the shares of the threads add up, they do not increase from one
thread to the next and differ by one at most, and nothing wraps. So if no thread's share of the
clients is cut to `MAX_SOCKETS`, the sockets are numbered from 0 on, and explicit local ports are
all different. -/
theorem perThread_splits (total nthreads : Nat) (htotal : total < 2 ^ 32) (hn : 1 ≤ nthreads) :
    ((List.range nthreads).map (perThread total nthreads)).sum = total ∧
      (∀ i j, i ≤ j → perThread total nthreads j ≤ perThread total nthreads i) ∧
      (∀ i j, perThread total nthreads i ≤ perThread total nthreads j + 1) ∧
      total / nthreads * nthreads < 2 ^ 32 ∧
      ((∀ i < nthreads, perThread total nthreads i ≤ maxSockets) →
        (initThreads total nthreads nthreads).2 = List.range total ∧
          ∀ localPort, localPort ≠ 0 → localPort < 2 ^ 16 →
            (openedPorts localPort (initThreads total nthreads nthreads).2).Nodup) := by
  refine ⟨sum_perThread_all htotal hn, fun i j hij => ?_, fun i j => ?_, ?_, fun hshare => ?_⟩
  · rw [perThread_eq htotal, perThread_eq htotal]
    split_ifs <;> omega
  · rw [perThread_eq htotal, perThread_eq htotal]
    split_ifs <;> omega
  · exact (Nat.div_mul_le_self total nthreads).trans_lt htotal
  · have hoffsets : (initThreads total nthreads nthreads).2 = List.range total := by
      rw [initThreads_eq htotal hn hshare le_rfl, sum_perThread_all htotal hn]
    refine ⟨hoffsets, fun localPort hport hlocal => ?_⟩
    rw [hoffsets]
    exact nodup_openedPorts hport hlocal total

/-- Five clients of two threads, from port 65532 on. The last two sockets are not opened, as the
second to last port is out of range. -/
theorem perThread_splits_five :
    (initThreads 5 2 2).2 = [0, 1, 2, 3, 4] ∧
      openedPorts 65532 (initThreads 5 2 2).2 = [65532, 65533, 65534] ∧
      (openedPorts 65532 (initThreads 5 2 2).2).Nodup := by
  obtain ⟨-, -, -, -, hsockets⟩ := perThread_splits 5 2 (by decide) (by decide)
  obtain ⟨hoffsets, hports⟩ := hsockets (by decide)
  exact ⟨hoffsets, by decide, hports 65532 (by decide) (by decide)⟩

end Dnsperf.Thread
