import Argentum.Proc.Lifecycle

/-!
# Argentum.Proc.Tree

The process tree that `process_copy`, `process_destroy` and `process_wait` keep over every run
from `process_init`. `TreeInv` states it:
- `__process_list` holds each process once;
- the children of a process are exactly the listed processes whose parent it is;
- every process but init has a listed parent with a smaller pid;
- a listed process is either a zombie or active. A zombie has no thread, no address space and no
  children, and its status is available. An active process has its thread and address space,
  and its status is not available;
- `pid_hash` holds exactly the active processes.

Each call keeps the invariant (`TreeInv.fork`, `TreeInv.exit`, `TreeInv.wait`), so every
reachable state has it (`ProcReachable.treeInv`). From it:
- every process but init is in its parent's children list and in no other;
- following parent pointers reaches init, because pids fall along the way
  (`TreeInv.reaches_init`);
- only a process's own `process_destroy` makes it a zombie, and only the `process_wait` of its
  parent reaps it, which frees it once (`ZombieStep`);
- `process_wait` always returns (`WaitSpec`). It returns `-ECHILD` exactly when its options are
  valid and no child matches. It returns a positive value only as the pid of a matching child
  whose status is available. With `WNOHANG` it returns 0 exactly when children match and none is
  available.
-/

namespace Argentum.Proc

/-- A zombie: `PROCESS_STATE_ZOMBIE`, no thread, no address space and no children, its status
available. -/
def ProcessSys.Zombie (S : ProcessSys) (p : Nat) : Prop :=
  (S.procs p).state = .zombie ∧ (S.procs p).thread = none ∧ (S.procs p).vm = none ∧
    (S.procs p).children = [] ∧ (S.procs p).available = true

/-- An active process, with its thread and address space, its status not available. -/
def ProcessSys.Alive (S : ProcessSys) (p : Nat) : Prop :=
  (S.procs p).state = .active ∧ (S.procs p).thread.isSome ∧ (S.procs p).vm.isSome ∧
    (S.procs p).available = false

/-- Whether a process is a zombie or active depends only on its state, thread, address space and
status flag, and for a zombie on its children. -/
theorem ProcessSys.life_congr {S S' : ProcessSys} {p : Nat} (h : S.Zombie p ∨ S.Alive p)
    (hs : (S'.procs p).state = (S.procs p).state)
    (ht : (S'.procs p).thread = (S.procs p).thread) (hv : (S'.procs p).vm = (S.procs p).vm)
    (ha : (S'.procs p).available = (S.procs p).available)
    (hc : (S.procs p).state = .active ∨ (S'.procs p).children = (S.procs p).children) :
    S'.Zombie p ∨ S'.Alive p := by
  unfold ProcessSys.Zombie ProcessSys.Alive at *
  rw [hs, ht, hv, ha]
  rcases h with ⟨h1, h2, h3, h4, h5⟩ | ⟨h1, h2, h3, h4⟩
  · refine .inl ⟨h1, h2, h3, ?_, h5⟩
    rcases hc with hc | hc
    · rw [h1] at hc
      cases hc
    · rw [hc]
      exact h4
  · exact .inr ⟨h1, h2, h3, h4⟩

/-- A call leaves the fields of `q`'s record that the tree reads as they were, all but its
children. -/
structure ProcessSys.SameFields (S S' : ProcessSys) (q : Nat) : Prop where
  parent : (S'.procs q).parent = (S.procs q).parent
  state : (S'.procs q).state = (S.procs q).state
  pid : (S'.procs q).pid = (S.procs q).pid
  thread : (S'.procs q).thread = (S.procs q).thread
  vm : (S'.procs q).vm = (S.procs q).vm
  available : (S'.procs q).available = (S.procs q).available

/-- A record that keeps its fields stays a zombie or active, given that a zombie keeps its
children. -/
theorem ProcessSys.SameFields.life {S S' : ProcessSys} {p : Nat} (hf : S.SameFields S' p)
    (h : S.Zombie p ∨ S.Alive p)
    (hc : (S.procs p).state = .active ∨ (S'.procs p).children = (S.procs p).children) :
    S'.Zombie p ∨ S'.Alive p :=
  ProcessSys.life_congr h hf.state hf.thread hf.vm hf.available hc

/-- The process `n` parent pointers above `p`. -/
def parentChain (S : ProcessSys) : Nat → Nat → Option Nat
  | 0, p => some p
  | n + 1, p => (S.procs p).parent.bind (parentChain S n)

/-- `process_free` erases a reaped process from a list `process_wait` has already erased it from:
on a list without repeats, the second erase removes nothing. -/
theorem mem_erase_erase_iff {l : List Nat} (hl : l.Nodup) {a b : Nat} :
    b ∈ (l.erase a).erase a ↔ b ∈ l ∧ b ≠ a := by
  rw [List.erase_of_not_mem hl.not_mem_erase, hl.mem_erase_iff, and_comm]

/-- The shape of the process table in every reachable state. -/
structure TreeInv (S : ProcessSys) : Prop where
  list_nodup : S.processList.Nodup
  init_mem : S.init ∈ S.processList
  init_parent : (S.procs S.init).parent = none
  cache_nodup : S.processCache.Nodup
  cache_free : ∀ p ∈ S.processCache, p ∉ S.processList
  hash_nodup : S.pidHash.Nodup
  hash_iff : ∀ p, p ∈ S.pidHash ↔ p ∈ S.processList ∧ (S.procs p).state = .active
  children_nodup : ∀ q ∈ S.processList, (S.procs q).children.Nodup
  child_iff : ∀ q ∈ S.processList, ∀ c,
    c ∈ (S.procs q).children ↔ c ∈ S.processList ∧ (S.procs c).parent = some q
  parent_mem : ∀ p ∈ S.processList, p ≠ S.init →
    ∃ q ∈ S.processList, (S.procs p).parent = some q ∧ (S.procs q).pid < (S.procs p).pid
  init_pid : ∀ p ∈ S.processList, p ≠ S.init → (S.procs S.init).pid < (S.procs p).pid
  pid_bounds : ∀ p ∈ S.processList, 0 < (S.procs p).pid ∧ (S.procs p).pid ≤ S.nextPid
  life : ∀ p ∈ S.processList, S.Zombie p ∨ S.Alive p

namespace TreeInv

variable {S : ProcessSys} (hI : TreeInv S)
include hI

/-- No process is its own child. -/
theorem not_mem_own_children {p : Nat} (hp : p ∈ S.processList) :
    p ∉ (S.procs p).children := by
  intro hc
  have hpp := ((hI.child_iff p hp p).mp hc).2
  by_cases hpi : p = S.init
  · rw [hpi, hI.init_parent] at hpp
    cases hpp
  · obtain ⟨q, -, hpq, hlt⟩ := hI.parent_mem p hp hpi
    rw [hpp] at hpq
    cases hpq
    exact absurd hlt (Int.lt_irrefl _)

/-- Init is nobody's child. -/
theorem init_not_child {q : Nat} (hq : q ∈ S.processList) : S.init ∉ (S.procs q).children := by
  intro hc
  have := ((hI.child_iff q hq S.init).mp hc).2
  rw [hI.init_parent] at this
  cases this

/-- Each listed process but init has a chain of parents through a child `a` of init to init
itself. The induction is on the pid, which falls along parent pointers. -/
theorem reaches_child_of_init : ∀ p ∈ S.processList, p ≠ S.init →
    ∃ a n, a ∈ (S.procs S.init).children ∧ parentChain S n p = some a ∧
      parentChain S (n + 1) p = some S.init := by
  intro p
  induction hn : (S.procs p).pid.toNat using Nat.strongRecOn generalizing p with
  | ind n ih =>
    intro hp hpi
    obtain ⟨q, hq, hpq, hlt⟩ := hI.parent_mem p hp hpi
    by_cases hqi : q = S.init
    · -- `p` is a child of init
      subst hqi
      exact ⟨p, 0, (hI.child_iff _ hq p).mpr ⟨hp, hpq⟩, rfl, by simp [parentChain, hpq]⟩
    · have hpos := (hI.pid_bounds q hq).1
      obtain ⟨a, m, ha, hchain, hinit⟩ := ih _ (by omega) q rfl hq hqi
      exact ⟨a, m + 1, ha, by simp [parentChain, hpq, hchain],
        by simp [parentChain, hpq] at hinit ⊢; exact hinit⟩

/-- Following parent pointers from a listed process reaches init. -/
theorem reaches_init {p : Nat} (hp : p ∈ S.processList) :
    ∃ n, parentChain S n p = some S.init := by
  by_cases hpi : p = S.init
  · exact ⟨0, by rw [hpi]; rfl⟩
  · obtain ⟨a, n, -, -, h⟩ := hI.reaches_child_of_init p hp hpi
    exact ⟨n + 1, h⟩

/-- While any process but init is listed, init has children; a zombie has none, so init is then
active. -/
theorem init_alive_of_mem {p : Nat} (hp : p ∈ S.processList) (hpi : p ≠ S.init) :
    S.Alive S.init := by
  obtain ⟨a, -, ha, -⟩ := hI.reaches_child_of_init p hp hpi
  rcases hI.life S.init hI.init_mem with hz | hlive
  · rw [hz.2.2.2.1] at ha
    cases ha
  · exact hlive

/-- The parent of a listed process is listed. -/
theorem parent_listed {p q : Nat} (hp : p ∈ S.processList) (hpq : (S.procs p).parent = some q) :
    q ∈ S.processList := by
  by_cases hpi : p = S.init
  · rw [hpi, hI.init_parent] at hpq
    cases hpq
  · obtain ⟨q', hq', hpq', -⟩ := hI.parent_mem p hp hpi
    rw [hpq] at hpq'
    cases hpq'
    exact hq'

/-- A listed process whose status is available is a zombie. -/
theorem zombie_of_available {p : Nat} (hp : p ∈ S.processList)
    (havail : (S.procs p).available = true) : S.Zombie p := by
  rcases hI.life p hp with hz | ⟨-, -, -, hna⟩
  · exact hz
  · rw [hna] at havail
    cases havail

end TreeInv

/-! ## Each call keeps the invariant -/

/-- `process_init`: `init_process` alone in the table, active, with pid 1. -/
theorem TreeInv.boot {S S₁ : ProcessSys} {init vm : Nat} (hlist : S.processList = [])
    (hhash : S.pidHash = []) (hnext : S.nextPid = 0) (hcache : S.processCache.Nodup)
    (h : processCreate S vm = some (S₁, init)) : TreeInv { S₁ with init } := by
  obtain ⟨thread, hc, hl, hh, hn, hrec⟩ := processCreate_eq_some h
  rw [hlist, List.nil_append] at hl
  rw [hhash, List.nil_append] at hh
  rw [hc] at hcache
  obtain ⟨hnotin, hnodup⟩ := List.nodup_cons.mp hcache
  refine ⟨?list_nodup, ?init_mem, ?init_parent, hnodup, ?cache_free, ?hash_nodup, ?hash_iff,
    ?children_nodup, ?child_iff, ?parent_mem, ?init_pid, ?pid_bounds, ?life⟩
  case list_nodup => simp [hl]
  case init_mem => simp [hl]
  case init_parent => simp [hrec]
  case cache_free =>
    intro p hp
    simp only [hl, List.mem_singleton]
    rintro rfl
    exact hnotin hp
  case hash_nodup => simp [hh]
  case hash_iff =>
    intro p
    simp only [hh, hl, List.mem_singleton]
    constructor
    · rintro rfl
      simp [hrec]
    · exact fun h => h.1
  case children_nodup => simp [hl, hrec]
  case child_iff =>
    intro q hq c
    simp only [hl, List.mem_singleton] at hq ⊢
    subst hq
    simp only [hrec, List.not_mem_nil, false_iff, not_and]
    rintro rfl
    simp [hrec]
  case parent_mem => simp [hl]
  case init_pid => simp [hl]
  case pid_bounds => simp [hl, hrec, hn, hnext]
  case life =>
    intro p hp
    simp only [hl, List.mem_singleton] at hp
    subst hp
    exact .inr (by simp [ProcessSys.Alive, hrec])

/-- A fork by a running process: the child joins the tree under it, active, with the largest
pid. -/
theorem TreeInv.fork {G G' : SignalSys} {E : CloneEnv} {p : Nat} {shareVm : Bool}
    {V' : Mm.VmState} {r : Int} (hI : TreeInv G.sys) (hp : Running G.sys p)
    (h : processCopy G E p shareVm = some (G', V', r)) : TreeInv G'.sys := by
  obtain ⟨hpL, hpa, -⟩ := hp
  obtain ⟨child, thread, hcache, hlist, hhash, hnext, -, hinit, -, hc, hpp, hq⟩ :=
    processCopy_eq_some (fun h => hI.cache_free p h hpL) h
  have hcL : child ∉ G.sys.processList :=
    hI.cache_free child (by rw [hcache]; exact List.mem_cons_self)
  have hcp : child ≠ p := fun e => hcL (e ▸ hpL)
  have hci : G.sys.init ≠ child := fun e => hcL (e ▸ hI.init_mem)
  obtain ⟨hcnot, hcnodup⟩ := List.nodup_cons.mp (hcache ▸ hI.cache_nodup)
  have hcH : child ∉ G.sys.pidHash := fun h => hcL ((hI.hash_iff child).mp h).1
  -- every process but the child keeps its record, but for `p`'s list of children
  have hsame : ∀ q, q ≠ child → G.sys.SameFields G'.sys q := by
    intro q hqc
    by_cases hqp : q = p
    · subst hqp
      constructor <;> simp [hpp]
    · constructor <;> simp [hq q hqc hqp]
  have hkids : ∀ q, q ≠ child → (G'.sys.procs q).children =
      if q = p then (G.sys.procs p).children ++ [child] else (G.sys.procs q).children := by
    intro q hqc
    by_cases hqp : q = p
    · subst hqp
      simp [hpp]
    · simp [hqp, hq q hqc hqp]
  have hmem : ∀ q, q ∈ G'.sys.processList ↔ q ∈ G.sys.processList ∨ q = child := by
    simp [hlist]
  have hpid : (G.sys.procs G.sys.init).pid ≤ G.sys.nextPid := (hI.pid_bounds _ hI.init_mem).2
  refine ⟨?list_nodup, ?init_mem, ?init_parent, hcnodup, ?cache_free, ?hash_nodup, ?hash_iff,
    ?children_nodup, ?child_iff, ?parent_mem, ?init_pid, ?pid_bounds, ?life⟩
  case list_nodup =>
    rw [hlist]
    exact List.nodup_append.mpr ⟨hI.list_nodup, (by simp),
      fun a ha b hb e => hcL (by simp only [List.mem_singleton] at hb; exact hb ▸ e ▸ ha)⟩
  case init_mem => exact (hmem _).mpr (.inl (hinit ▸ hI.init_mem))
  case init_parent => rw [hinit, (hsame _ hci).parent, hI.init_parent]
  case cache_free =>
    intro q hqc
    have hqL := hI.cache_free q (by rw [hcache]; exact List.mem_cons_of_mem child hqc)
    rw [hmem]
    rintro (h | rfl)
    · exact hqL h
    · exact hcnot hqc
  case hash_nodup =>
    rw [hhash]
    exact List.nodup_append.mpr ⟨hI.hash_nodup, (by simp),
      fun a ha b hb e => hcH (by simp only [List.mem_singleton] at hb; exact hb ▸ e ▸ ha)⟩
  case hash_iff =>
    intro q
    rw [hhash, List.mem_append, List.mem_singleton, hmem]
    by_cases hqc : q = child
    · subst hqc
      simp [hc]
    · rw [(hsame q hqc).state, hI.hash_iff]
      simp [hqc]
  case children_nodup =>
    intro q hq'
    by_cases hqc : q = child
    · subst hqc
      simp [hc]
    · have hqL : q ∈ G.sys.processList := ((hmem q).mp hq').resolve_right hqc
      rw [hkids q hqc]
      split
      · next hqp =>
        subst hqp
        exact List.nodup_append.mpr ⟨hI.children_nodup q hqL, (by simp),
          fun a ha b hb e => hcL (by
            simp only [List.mem_singleton] at hb
            exact hb ▸ e ▸ ((hI.child_iff q hqL a).mp ha).1)⟩
      · exact hI.children_nodup q hqL
  case child_iff =>
    intro q hq' c
    rw [hmem]
    by_cases hcc : c = child
    · -- the child's parent is `p`, and it is in `p`'s list only
      subst hcc
      rw [hc]
      by_cases hqc : q = c
      · subst hqc
        simp [hc, Ne.symm hcp]
      · rw [hkids q hqc]
        by_cases hqp : q = p
        · simp [hqp]
        · simp only [hqp, if_false, Option.some.injEq, Ne.symm hqp, and_false, iff_false]
          exact fun h => hcL ((hI.child_iff q (((hmem q).mp hq').resolve_right hqc) c).mp h).1
    · rw [(hsame c hcc).parent]
      by_cases hqc : q = child
      · -- nothing listed has the child for parent
        subst hqc
        simp only [hc, List.not_mem_nil, false_iff, not_and, hcc, or_false]
        exact fun hcL' hpar => hcL (hI.parent_listed hcL' hpar)
      · have hqL : q ∈ G.sys.processList := ((hmem q).mp hq').resolve_right hqc
        rw [hkids q hqc]
        simp only [hcc, or_false]
        rw [← hI.child_iff q hqL c]
        split
        · next hqp =>
          subst hqp
          simp [hcc]
        · rfl
  case parent_mem =>
    intro x hx hxi
    rw [hinit] at hxi
    by_cases hxc : x = child
    · subst hxc
      refine ⟨p, (hmem p).mpr (.inl hpL), by rw [hc], ?_⟩
      rw [hc, (hsame p (Ne.symm hcp)).pid]
      have := (hI.pid_bounds p hpL).2
      simp only
      omega
    · obtain ⟨q, hq', hxq, hlt⟩ := hI.parent_mem x (((hmem x).mp hx).resolve_right hxc) hxi
      have hqc : q ≠ child := fun e => hcL (e ▸ hq')
      refine ⟨q, (hmem q).mpr (.inl hq'), by rw [(hsame x hxc).parent, hxq], ?_⟩
      rw [(hsame q hqc).pid, (hsame x hxc).pid]
      exact hlt
  case init_pid =>
    intro x hx hxi
    rw [hinit] at hxi ⊢
    rw [(hsame _ hci).pid]
    by_cases hxc : x = child
    · subst hxc
      rw [hc]
      simp only
      omega
    · rw [(hsame x hxc).pid]
      exact hI.init_pid x (((hmem x).mp hx).resolve_right hxc) hxi
  case pid_bounds =>
    intro x hx
    rw [hnext]
    by_cases hxc : x = child
    · subst hxc
      rw [hc]
      have := (hI.pid_bounds _ hI.init_mem).1
      simp only
      omega
    · rw [(hsame x hxc).pid]
      have := hI.pid_bounds x (((hmem x).mp hx).resolve_right hxc)
      omega
  case life =>
    intro x hx
    by_cases hxc : x = child
    · subst hxc
      exact .inr (by simp [ProcessSys.Alive, hc])
    refine (hsame x hxc).life (hI.life x (((hmem x).mp hx).resolve_right hxc)) ?_
    -- only `p`'s list of children changed, and `p` is active
    by_cases hxp : x = p
    · exact .inl (hxp ▸ hpa)
    · exact .inr (by rw [hkids x hxc, if_neg hxp])

/-- `process_destroy` by a running process: it stays listed as a zombie, and its children move
to the back of init's list. -/
theorem TreeInv.exit {G G' : SignalSys} {p : Nat} {status : Int}
    (hI : TreeInv G.sys) (hp : Running G.sys p) (h : processDestroy G p status = some G') :
    TreeInv G'.sys := by
  obtain ⟨hpL, hpa, -⟩ := hp
  obtain ⟨hloop, hlist, hhash, hcache, hnext, hinit, hzp, hinitrec, hkid, hrest⟩ :=
    processDestroy_eq_some h (hI.init_not_child hpL) (hI.not_mem_own_children hpL)
      (hI.children_nodup p hpL)
  set K := (G.sys.procs p).children with hK
  have hKmem : ∀ c ∈ K, c ∈ G.sys.processList ∧ (G.sys.procs c).parent = some p :=
    fun c hc => (hI.child_iff p hpL c).mp hc
  have hKp : p ∉ K := hI.not_mem_own_children hpL
  have hKi : G.sys.init ∉ K := hI.init_not_child hpL
  -- a process with children is not init
  have hpi_of : ∀ c ∈ K, p ≠ G.sys.init := fun c hc e => hloop ⟨e, List.ne_nil_of_mem hc⟩
  -- the records after the call, field by field
  have hparent : ∀ q, (G'.sys.procs q).parent =
      if q ∈ K then some G.sys.init else (G.sys.procs q).parent := by
    intro q
    by_cases hqp : q = p
    · subst hqp
      simp [hzp, hKp]
    by_cases hqi : q = G.sys.init
    · subst hqi
      simp [hinitrec (Ne.symm hqp), hKi]
    by_cases hqK : q ∈ K
    · simp [hkid q hqK, hqK]
    · simp [hrest q hqp hqi hqK, hqK]
  have hkids : ∀ q, (G'.sys.procs q).children =
      if q = p then [] else if q = G.sys.init then (G.sys.procs q).children ++ K
      else (G.sys.procs q).children := by
    intro q
    by_cases hqp : q = p
    · subst hqp
      simp [hzp]
    by_cases hqi : q = G.sys.init
    · subst hqi
      simp [hinitrec (Ne.symm hqp), hqp]
    by_cases hqK : q ∈ K
    · simp [hkid q hqK, hqp, hqi]
    · simp [hrest q hqp hqi hqK, hqp, hqi]
  -- every other field changes for `p` only
  have hother := fun q (hqp : q ≠ p) => processDestroy_other h (hI.init_not_child hpL)
    (hI.not_mem_own_children hpL) (hI.children_nodup p hpL) hqp
  have hpid : ∀ q, (G'.sys.procs q).pid = (G.sys.procs q).pid := by
    intro q
    by_cases hqp : q = p
    · subst hqp
      simp [hzp]
    · exact (hother q hqp).2.1
  refine ⟨hlist ▸ hI.list_nodup, hinit ▸ hlist ▸ hI.init_mem, ?init_parent,
    hcache ▸ hI.cache_nodup, hcache ▸ hlist ▸ hI.cache_free, hhash ▸ hI.hash_nodup.erase p,
    ?hash_iff, ?children_nodup, ?child_iff, ?parent_mem, ?init_pid, ?pid_bounds, ?life⟩
  case init_parent => rw [hinit, hparent, if_neg hKi, hI.init_parent]
  case hash_iff =>
    intro q
    rw [hhash, hI.hash_nodup.mem_erase_iff, hI.hash_iff, hlist]
    by_cases hqp : q = p
    · subst hqp
      simp [hzp]
    · simp [hqp, (hother q hqp).1]
  case children_nodup =>
    intro q hq
    rw [hlist] at hq
    rw [hkids]
    split
    · exact List.nodup_nil
    split
    · next hqp hqi =>
      -- init's children and the moved ones have different parents
      refine List.nodup_append.mpr ⟨hI.children_nodup q hq, hI.children_nodup p hpL,
        fun a ha b hb e => ?_⟩
      have h1 := ((hI.child_iff q hq a).mp ha).2
      rw [e, (hKmem b hb).2] at h1
      exact hqp (Option.some.inj h1).symm
    · exact hI.children_nodup q hq
  case child_iff =>
    intro q hq c
    rw [hlist] at hq ⊢
    rw [hkids, hparent]
    by_cases hqp : q = p
    · -- nothing is left in `p`'s list, and nothing listed has `p` for parent
      subst hqp
      simp only [if_true, List.not_mem_nil, false_iff, not_and]
      intro hc
      split
      · next hcK =>
        exact fun e => hpi_of c hcK (Option.some.inj e).symm
      · next hcK =>
        exact fun e => hcK ((hI.child_iff q hq c).mpr ⟨hc, e⟩)
    rw [if_neg hqp]
    by_cases hqi : q = G.sys.init
    · subst hqi
      simp only [if_true, List.mem_append]
      by_cases hcK : c ∈ K
      · simp [hcK, (hKmem c hcK).1]
      · simp [hcK, hI.child_iff _ hq c]
    · rw [if_neg hqi, hI.child_iff q hq c]
      by_cases hcK : c ∈ K
      · simp only [hcK, if_true, Option.some.injEq]
        constructor
        · rintro ⟨-, e⟩
          rw [(hKmem c hcK).2] at e
          exact absurd (Option.some.inj e).symm hqp
        · rintro ⟨-, e⟩
          exact absurd e.symm hqi
      · simp [hcK]
  case parent_mem =>
    intro x hx hxi
    rw [hlist] at hx
    rw [hinit] at hxi
    rw [hlist, hparent]
    split
    · next hxK =>
      exact ⟨G.sys.init, hI.init_mem, rfl, by rw [hpid, hpid]; exact hI.init_pid x hx hxi⟩
    · obtain ⟨q, hq, hxq, hlt⟩ := hI.parent_mem x hx hxi
      exact ⟨q, hq, hxq, by rw [hpid, hpid]; exact hlt⟩
  case init_pid =>
    intro x hx hxi
    rw [hlist] at hx
    rw [hinit] at hxi ⊢
    rw [hpid, hpid]
    exact hI.init_pid x hx hxi
  case pid_bounds =>
    intro x hx
    rw [hlist] at hx
    rw [hpid, hnext]
    exact hI.pid_bounds x hx
  case life =>
    intro q hq
    rw [hlist] at hq
    by_cases hqp : q = p
    · subst hqp
      exact .inl (by simp [ProcessSys.Zombie, hzp])
    obtain ⟨hs, -, ht, hv, ha⟩ := hother q hqp
    refine ProcessSys.life_congr (hI.life q hq) hs ht hv ha ?_
    rw [hkids, if_neg hqp]
    split
    · next hqi =>
      -- init gains children only from a process that had some, and init is then active
      by_cases hKn : K = []
      · exact .inr (by rw [hKn, List.append_nil])
      · obtain ⟨c, hc⟩ := List.exists_mem_of_ne_nil K hKn
        have := hI.init_alive_of_mem hpL (hpi_of c hc)
        exact .inl (hqi ▸ this.1)
    · exact .inr rfl

/-- `process_wait` by a running process: at most it reaps a zombie child, which leaves the tree
and goes back to `process_cache`. -/
theorem TreeInv.wait {G G' : SignalSys} {p : Nat} {pid options : Int} {res : WaitResult}
    (hI : TreeInv G.sys) (hp : Running G.sys p) (h : processWait G p pid options = some (G', res)) :
    TreeInv G'.sys := by
  obtain ⟨hpL, hpa, -⟩ := hp
  rcases processWait_eq_some h (hI.not_mem_own_children hpL) with
    rfl | ⟨c, hc, -, havail, -, hcase⟩
  · exact hI
  obtain ⟨hcL, hcp⟩ := (hI.child_iff p hpL c).mp hc
  -- the child reported has its status available: it is a zombie
  have hz := hI.zombie_of_available hcL havail
  rcases hcase with ⟨-, -, hlist, hhash, hcache, hnext, hinit, hcur, hrest⟩ | ⟨hnz, -⟩
  swap
  · exact absurd hz.1 hnz
  have hcne : c ≠ p := fun e => hI.not_mem_own_children hpL (e ▸ hc)
  have hci : c ≠ G.sys.init := fun e => hI.init_not_child hpL (e ▸ hc)
  have hcH : c ∉ G.sys.pidHash := by
    rw [hI.hash_iff]
    rintro ⟨-, hs⟩
    rw [hz.1] at hs
    cases hs
  have hcC : c ∉ G.sys.processCache := fun h => hI.cache_free c h hcL
  rw [List.erase_of_not_mem hcH] at hhash
  have hmem : ∀ q, q ∈ G'.sys.processList ↔ q ∈ G.sys.processList ∧ q ≠ c := by
    intro q
    rw [hlist, mem_erase_erase_iff hI.list_nodup]
  -- every record but `c`'s keeps all fields but `p`'s children
  have hsame : ∀ q, q ≠ c → G.sys.SameFields G'.sys q := by
    intro q hqc
    by_cases hqp : q = p
    · subst hqp
      constructor <;> simp [hcur]
    · constructor <;> simp [hrest q hqp hqc]
  have hkids : ∀ q, q ≠ c → (G'.sys.procs q).children =
      if q = p then (G.sys.procs p).children.erase c else (G.sys.procs q).children := by
    intro q hqc
    by_cases hqp : q = p
    · subst hqp
      simp [hcur]
    · simp [hqp, hrest q hqp hqc]
  refine ⟨?list_nodup, (hmem _).mpr ⟨hinit ▸ hI.init_mem, hinit ▸ Ne.symm hci⟩, ?init_parent,
    ?cache_nodup, ?cache_free, hhash ▸ hI.hash_nodup, ?hash_iff, ?children_nodup, ?child_iff,
    ?parent_mem, ?init_pid, ?pid_bounds, ?life⟩
  case list_nodup =>
    rw [hlist]
    exact (hI.list_nodup.erase c).erase c
  case init_parent => rw [hinit, (hsame _ (Ne.symm hci)).parent, hI.init_parent]
  case cache_nodup =>
    rw [hcache]
    exact List.nodup_cons.mpr ⟨hcC, hI.cache_nodup⟩
  case cache_free =>
    intro q hq
    rw [hcache] at hq
    rw [hmem]
    rcases List.mem_cons.mp hq with rfl | hq
    · exact fun h => h.2 rfl
    · exact fun h => hI.cache_free q hq h.1
  case hash_iff =>
    intro q
    rw [hhash, hmem]
    by_cases hqc : q = c
    · subst hqc
      simp [hcH]
    · rw [(hsame q hqc).state, hI.hash_iff]
      simp [hqc]
  case children_nodup =>
    intro q hq
    obtain ⟨hqL, hqc⟩ := (hmem q).mp hq
    rw [hkids q hqc]
    split
    · exact (hI.children_nodup p hpL).erase c
    · exact hI.children_nodup q hqL
  case child_iff =>
    intro q hq x
    obtain ⟨hqL, hqc⟩ := (hmem q).mp hq
    rw [hkids q hqc, hmem]
    by_cases hxc : x = c
    · -- the reaped child is in no list
      subst hxc
      simp only [ne_eq, not_true_eq_false, and_false, false_and, iff_false]
      split
      · exact (hI.children_nodup p hpL).not_mem_erase
      · next hqp =>
        intro hx
        rw [((hI.child_iff q hqL x).mp hx).2] at hcp
        exact hqp (Option.some.inj hcp)
    · rw [(hsame x hxc).parent]
      split
      · next hqp =>
        subst hqp
        rw [(hI.children_nodup q hqL).mem_erase_iff, hI.child_iff q hqL x]
        simp [hxc]
      · rw [hI.child_iff q hqL x]
        simp [hxc]
  case parent_mem =>
    intro x hx hxi
    obtain ⟨hxL, hxc⟩ := (hmem x).mp hx
    rw [hinit] at hxi
    obtain ⟨q, hq, hxq, hlt⟩ := hI.parent_mem x hxL hxi
    -- the parent is not the zombie, which has no children
    have hqc : q ≠ c := by
      rintro rfl
      have := (hI.child_iff q hq x).mpr ⟨hxL, hxq⟩
      rw [hz.2.2.2.1] at this
      cases this
    refine ⟨q, (hmem q).mpr ⟨hq, hqc⟩, by rw [(hsame x hxc).parent, hxq], ?_⟩
    rw [(hsame q hqc).pid, (hsame x hxc).pid]
    exact hlt
  case init_pid =>
    intro x hx hxi
    obtain ⟨hxL, hxc⟩ := (hmem x).mp hx
    rw [hinit] at hxi ⊢
    rw [(hsame _ (Ne.symm hci)).pid, (hsame x hxc).pid]
    exact hI.init_pid x hxL hxi
  case pid_bounds =>
    intro x hx
    obtain ⟨hxL, hxc⟩ := (hmem x).mp hx
    rw [(hsame x hxc).pid, hnext]
    exact hI.pid_bounds x hxL
  case life =>
    intro q hq
    obtain ⟨hqL, hqc⟩ := (hmem q).mp hq
    refine (hsame q hqc).life (hI.life q hqL) ?_
    -- only `p`'s list of children changed, and `p` is active
    by_cases hqp : q = p
    · exact .inl (hqp ▸ hpa)
    · exact .inr (by rw [hkids q hqc, if_neg hqp])

/-- Every call keeps the invariant. -/
theorem TreeInv.step {G G' : SignalSys} (hI : TreeInv G.sys) (hs : ProcStep G G') :
    TreeInv G'.sys := by
  cases hs with
  | fork hp h => exact hI.fork hp h
  | exit hp h => exact hI.exit hp h
  | wait hp h => exact hI.wait hp h
  | pages pages refCount =>
    -- the page allocator is no part of the tree
    exact ⟨hI.list_nodup, hI.init_mem, hI.init_parent, hI.cache_nodup, hI.cache_free,
      hI.hash_nodup, hI.hash_iff, hI.children_nodup, hI.child_iff, hI.parent_mem, hI.init_pid,
      hI.pid_bounds, hI.life⟩

/-- Every state reached from `process_init` has the invariant. -/
theorem ProcReachable.treeInv {G : SignalSys} (h : ProcReachable G) : TreeInv G.sys := by
  induction h with
  | boot hlist hhash hnext hcache hcreate => exact TreeInv.boot hlist hhash hnext hcache hcreate
  | step _ hs ih => exact ih.step hs

/-! ## Zombies -/

/-- What a step does to zombies. A listed process becomes one only by its own
`process_destroy`. A zombie stays one, listed, until the `process_wait` of its parent reaps it;
that call takes it off `__process_list` and puts it back in `process_cache`, where it was not. -/
def ZombieStep (G G' : SignalSys) : Prop :=
  (∀ p ∈ G.sys.processList, (G.sys.procs p).state ≠ .zombie → p ∈ G'.sys.processList →
      (G'.sys.procs p).state = .zombie → ∃ status, processDestroy G p status = some G') ∧
  ∀ p ∈ G.sys.processList, (G.sys.procs p).state = .zombie →
    (p ∈ G'.sys.processList ∧ (G'.sys.procs p).state = .zombie) ∨
    (p ∉ G'.sys.processList ∧ p ∉ G.sys.processCache ∧
      G'.sys.processCache = p :: G.sys.processCache ∧
      ∃ q pid options st, (G.sys.procs p).parent = some q ∧
        processWait G q pid options = some (G', .ret (G.sys.procs p).pid st))

/-- Zombies are made and reaped only as `ZombieStep` says. -/
theorem TreeInv.zombieStep {G G' : SignalSys} (hI : TreeInv G.sys) (hs : ProcStep G G') :
    ZombieStep G G' := by
  cases hs with
  | @fork _ _ x _ _ _ hx h =>
    obtain ⟨child, -, hcache, hlist, -, -, -, -, -, -, hxx, hq⟩ :=
      processCopy_eq_some (fun h => hI.cache_free x h hx.1) h
    have hcL : child ∉ G.sys.processList :=
      hI.cache_free child (by rw [hcache]; exact List.mem_cons_self)
    -- a fork keeps every listed process listed, in its state
    have hkeep : ∀ q ∈ G.sys.processList, q ∈ G'.sys.processList ∧
        (G'.sys.procs q).state = (G.sys.procs q).state := by
      intro q hqL
      refine ⟨by rw [hlist]; exact List.mem_append_left _ hqL, ?_⟩
      by_cases hqx : q = x
      · subst hqx
        rw [hxx]
      · rw [hq q (fun e => hcL (e ▸ hqL)) hqx]
    exact ⟨fun q hq hnz _ hz => absurd ((hkeep q hq).2 ▸ hz) hnz,
      fun q hq hz => .inl ⟨(hkeep q hq).1, (hkeep q hq).2 ▸ hz⟩⟩
  | @exit _ x status hx h =>
    have hother := fun q (hqx : q ≠ x) => processDestroy_other h (hI.init_not_child hx.1)
      (hI.not_mem_own_children hx.1) (hI.children_nodup x hx.1) hqx
    obtain ⟨-, hlist, -⟩ := processDestroy_eq_some h (hI.init_not_child hx.1)
      (hI.not_mem_own_children hx.1) (hI.children_nodup x hx.1)
    refine ⟨fun q hq hnz _ hz => ?_, fun q hq hz => .inl ⟨by rw [hlist]; exact hq, ?_⟩⟩
    · -- only the caller changes its state
      by_cases hqx : q = x
      · subst hqx
        exact ⟨status, h⟩
      · exact absurd ((hother q hqx).1 ▸ hz) hnz
    · have hqx : q ≠ x := by
        rintro rfl
        rw [hx.2.1] at hz
        cases hz
      rw [(hother q hqx).1]
      exact hz
  | @wait _ x pid options res hx h =>
    rcases processWait_eq_some h (hI.not_mem_own_children hx.1) with
      rfl | ⟨c, hc, -, havail, hres, hcase⟩
    · exact ⟨fun q _ hnz _ hz => absurd hz hnz, fun q hq hz => .inl ⟨hq, hz⟩⟩
    obtain ⟨hcL, hcx⟩ := (hI.child_iff x hx.1 c).mp hc
    have hz := hI.zombie_of_available hcL havail
    rcases hcase with ⟨-, -, hlist, -, hcache, -, -, hcur, hrest⟩ | ⟨hnz, -⟩
    swap
    · exact absurd hz.1 hnz
    -- every listed process but `c` stays listed, in its state
    have hkeep : ∀ q ∈ G.sys.processList, q ≠ c → q ∈ G'.sys.processList ∧
        (G'.sys.procs q).state = (G.sys.procs q).state := by
      intro q hqL hqc
      refine ⟨by rw [hlist, mem_erase_erase_iff hI.list_nodup]; exact ⟨hqL, hqc⟩, ?_⟩
      by_cases hqx : q = x
      · subst hqx
        rw [hcur]
      · rw [hrest q hqx hqc]
    refine ⟨fun q hq hnz _ hz' => ?_, fun q hq hzq => ?_⟩
    · by_cases hqc : q = c
      · subst hqc
        exact absurd hz.1 hnz
      · exact absurd ((hkeep q hq hqc).2 ▸ hz') hnz
    · by_cases hqc : q = c
      · -- the reaped zombie: off the list, back in the pool, by its parent's wait
        subst hqc
        refine .inr ⟨?_, fun h => hI.cache_free q h hq, hcache, x, pid, options,
          some (G.sys.procs q).status, hcx, ?_⟩
        · rw [hlist, mem_erase_erase_iff hI.list_nodup]
          exact fun h => h.2 rfl
        · rw [← hres]
          exact h
      · exact .inl ⟨(hkeep q hq hqc).1, (hkeep q hq hqc).2 ▸ hzq⟩
  | pages pages refCount =>
    exact ⟨fun q _ hnz _ hz => absurd hz hnz, fun q hq hz => .inl ⟨hq, hz⟩⟩

/-! ## `process_wait` -/

/-- A child of `current` that the selector `pid` matches. -/
def ProcessSys.WaitMatches (S : ProcessSys) (current : Nat) (pid : Int) (c : Nat) : Prop :=
  c ∈ (S.procs current).children ∧ processMatchPid S current c pid = true

/-- The results of `process_wait`. The call returns. It returns `-ECHILD` exactly when the
options are valid and no child matches. A positive value is the pid of a matching child whose
status was available. With `WNOHANG` it returns 0 exactly when the options are valid, some child
matches and no matching child has its status available. -/
def WaitSpec (G : SignalSys) (current : Nat) (pid options : Int) : Prop :=
  ∃ G' res, processWait G current pid options = some (G', res) ∧
    (res = .ret (-eChild) none ↔
      (0 ≤ options ∧ options < 4) ∧ ¬∃ c, G.sys.WaitMatches current pid c) ∧
    (∀ r st, res = .ret r st → 0 < r → ∃ c, G.sys.WaitMatches current pid c ∧
      (G.sys.procs c).available = true ∧ (G.sys.procs c).pid = r) ∧
    (options.toNat &&& wNoHang ≠ 0 → (res = .ret 0 none ↔
      (0 ≤ options ∧ options < 4) ∧ (∃ c, G.sys.WaitMatches current pid c) ∧
        ∀ c, G.sys.WaitMatches current pid c → (G.sys.procs c).available = false))

/-- A listed child reports exactly when its status is available: it is a zombie or active. -/
theorem TreeInv.reports_eq {S : ProcessSys} (hI : TreeInv S) {c : Nat} (hc : c ∈ S.processList)
    (untraced : Bool) : processWaitReports S untraced c = (S.procs c).available := by
  rcases hI.life c hc with ⟨hs, -, -, -, ha⟩ | ⟨hs, -, -, ha⟩
  · simp [processWaitReports, hs, ha]
  · simp [processWaitReports, hs, ha]

/-- `process_wait` by a running process meets `WaitSpec`. -/
theorem TreeInv.waitSpec {G : SignalSys} (hI : TreeInv G.sys) {current : Nat}
    (hcur : Running G.sys current) (pid options : Int) : WaitSpec G current pid options := by
  have hmatchL : ∀ c, G.sys.WaitMatches current pid c → c ∈ G.sys.processList :=
    fun c hc => ((hI.child_iff current hcur.1 c).mp hc.1).1
  by_cases hopt : options < 0 ∨ 4 ≤ options
  · -- invalid options: `-EINVAL`, whatever the children
    have hinval : ¬(0 ≤ options ∧ options < 4) := by omega
    refine ⟨G, _, processWait_of_invalid hopt, ?_, ?_, fun _ => ?_⟩
    · simp [hinval, eInval, eChild]
    · intro r st hr hpos
      cases hr
      simp [eInval] at hpos
    · simp [hinval, eInval]
  have hvalid : 0 ≤ options ∧ options < 4 := by omega
  rcases hscan : processWaitScan G.sys current pid (options.toNat &&& wUntraced ≠ 0)
    (G.sys.procs current).children 0 with ⟨_ | c, m⟩
  · -- nothing reported: no matching child has its status available
    obtain ⟨hrep, hlast⟩ := processWaitScan_none hscan
    have hnone : ∀ c, G.sys.WaitMatches current pid c → (G.sys.procs c).available = false :=
      fun c hc => hI.reports_eq (hmatchL c hc) _ ▸ hrep c hc.1 hc.2
    refine ⟨G, _, processWait_of_scan_none hopt hscan, ?_⟩
    rcases hlast with ⟨rfl, hno⟩ | ⟨c, hc, hcm, rfl⟩
    · -- no child matches: `-ECHILD`
      have hnm : ¬∃ c, G.sys.WaitMatches current pid c := fun ⟨c, hc, hcm⟩ => by
        rw [hno c hc] at hcm
        cases hcm
      rw [if_pos rfl]
      refine ⟨⟨fun _ => ⟨hvalid, hnm⟩, fun _ => rfl⟩, ?_, fun _ => ?_⟩
      · intro r st hr hpos
        cases hr
        simp [eChild] at hpos
      · simp [hnm, eChild]
    · -- a child matches, with a positive pid: 0 with `WNOHANG`, or sleep
      have hpos := (hI.pid_bounds c (hmatchL c ⟨hc, hcm⟩)).1
      have hne : (G.sys.procs c).pid ≠ 0 := by omega
      have hm : ∃ c, G.sys.WaitMatches current pid c := ⟨c, hc, hcm⟩
      rw [if_neg hne]
      refine ⟨⟨fun hr => ?_, fun h => absurd hm h.2⟩, fun r st hr hr0 => ?_, fun hnh => ?_⟩
      · split at hr <;> simp [eChild] at hr
      · split at hr
        · cases hr
          exact absurd hr0 (Int.lt_irrefl 0)
        · cases hr
      · rw [if_pos hnh]
        exact ⟨fun _ => ⟨hvalid, hm, hnone⟩, fun _ => rfl⟩
  · -- a reported child: a zombie, reaped, whose pid comes back
    obtain ⟨hc, hcm, hcr, rfl⟩ := processWaitScan_some hscan
    have hcL := hmatchL c ⟨hc, hcm⟩
    have havail : (G.sys.procs c).available = true := hI.reports_eq hcL _ ▸ hcr
    have hz := hI.zombie_of_available hcL havail
    have hne : c ≠ current := fun e => hI.not_mem_own_children hcur.1 (e ▸ hc)
    obtain ⟨G', hG'⟩ := processWait_of_scan_some hopt hscan hne hz.1 hz.2.1
    refine ⟨G', _, hG', ?_, ?_, fun _ => ?_⟩
    · simp only [WaitResult.ret.injEq, reduceCtorEq, and_false, false_iff, not_and, not_not]
      exact fun _ => ⟨c, hc, hcm⟩
    · intro r st hr _
      cases hr
      exact ⟨c, ⟨hc, hcm⟩, havail, rfl⟩
    · simp only [WaitResult.ret.injEq, reduceCtorEq, and_false, false_iff, not_and]
      intro _ _ hall
      rw [hall c ⟨hc, hcm⟩] at havail
      cases havail

/-! ## The process tree in every reachable state -/

/-- The process tree in a state `G`.
- Every process but init is in the children list of its parent and of no other process, and
  init is in none.
- Following parent pointers from any process reaches init.
- A zombie has no thread and no address space and is not in `pid_hash`.
- `process_destroy` leaves its caller a listed zombie, and every step makes and reaps zombies as
  `ZombieStep` says.
- Every `process_wait` meets `WaitSpec`. -/
structure ProcessTreeSpec (G : SignalSys) : Prop where
  one_parent : ∀ p ∈ G.sys.processList, p ≠ G.sys.init → ∃ q, (G.sys.procs p).parent = some q ∧
    ∀ q' ∈ G.sys.processList, p ∈ (G.sys.procs q').children ↔ q' = q
  init_orphan : ∀ q ∈ G.sys.processList, G.sys.init ∉ (G.sys.procs q).children
  reaches_init : ∀ p ∈ G.sys.processList, ∃ n, parentChain G.sys n p = some G.sys.init
  zombie : ∀ p ∈ G.sys.processList, (G.sys.procs p).state = .zombie →
    (G.sys.procs p).thread = none ∧ (G.sys.procs p).vm = none ∧ p ∉ G.sys.pidHash
  destroy : ∀ p status G', Running G.sys p → processDestroy G p status = some G' →
    p ∈ G'.sys.processList ∧ (G'.sys.procs p).state = .zombie
  step : ∀ G', ProcStep G G' → ZombieStep G G'
  wait : ∀ current pid options, Running G.sys current → WaitSpec G current pid options

/-- Every state that `process_copy`, `process_destroy` and `process_wait` reach from
`process_init` has the process tree of `ProcessTreeSpec`. -/
theorem process_tree_invariant {G : SignalSys} (hG : ProcReachable G) : ProcessTreeSpec G := by
  have hI := hG.treeInv
  refine ⟨fun p hp hpi => ?_, fun q hq => hI.init_not_child hq, fun p hp => hI.reaches_init hp,
    fun p hp hz => ?_, fun p status G' hp h => ?_, fun G' hs => hI.zombieStep hs,
    fun current pid options hcur => hI.waitSpec hcur pid options⟩
  · -- the parent's list is the only one
    obtain ⟨q, -, hpq, -⟩ := hI.parent_mem p hp hpi
    refine ⟨q, hpq, fun q' hq' => ?_⟩
    rw [hI.child_iff q' hq' p, hpq]
    simp [hp, eq_comm]
  · rcases hI.life p hp with ⟨-, ht, hv, -, -⟩ | ⟨hs, -⟩
    · refine ⟨ht, hv, fun hh => ?_⟩
      rw [((hI.hash_iff p).mp hh).2] at hz
      cases hz
    · rw [hs] at hz
      cases hz
  · obtain ⟨-, hlist, -, -, -, -, hzp, -⟩ := processDestroy_eq_some h (hI.init_not_child hp.1)
      (hI.not_mem_own_children hp.1) (hI.children_nodup p hp.1)
    exact ⟨by rw [hlist]; exact hp.1, by rw [hzp]⟩

/-- `process_init` with descriptor 0, thread object 0 and page 5 free, and the address space 7
for init: a reachable state where init has no children. -/
theorem processInit_reachable :
    ∃ G : SignalSys, ProcReachable G ∧ (G.sys.procs G.sys.init).children = [] := by
  obtain ⟨⟨S, init⟩, hcreate⟩ := Option.isSome_iff_exists.mp
    (show (processCreate ⟨fun _ => default, [], [], [0], [0], [5], fun _ => 0, 0, 0⟩ 7).isSome
      from rfl)
  have hG := ProcReachable.boot (G := ⟨⟨fun _ => default, [], [], [0], [0], [5], fun _ => 0, 0, 0⟩,
    fun _ _ => default, fun _ => 0, fun _ => ⟨0, fun _ => none, []⟩, fun _ => 0, [], 0⟩)
    rfl rfl rfl (by decide) hcreate
  obtain ⟨_, -, -, -, -, hrec⟩ := processCreate_eq_some hcreate
  exact ⟨_, hG, by simp [hrec]⟩

/-- The state right after `process_init`. -/
theorem process_tree_invariant_init : ∃ G, ProcReachable G ∧ ProcessTreeSpec G := by
  obtain ⟨G, hG, -⟩ := processInit_reachable
  exact ⟨G, hG, process_tree_invariant hG⟩

/-- Right after `process_init`, init waits for any child with options 4, outside
`WNOHANG | WUNTRACED`. No child matches, and the call returns `-EINVAL`, not `-ECHILD`. -/
theorem process_wait_bad_options_einval :
    ∃ G, ProcReachable G ∧ (¬∃ c, G.sys.WaitMatches G.sys.init (-1) c) ∧
      processWait G G.sys.init (-1) 4 = some (G, .ret (-eInval) none) := by
  obtain ⟨G, hG, hnil⟩ := processInit_reachable
  refine ⟨G, hG, ?_, processWait_of_invalid (by decide)⟩
  rintro ⟨c, hc, -⟩
  rw [hnil] at hc
  cases hc

end Argentum.Proc
