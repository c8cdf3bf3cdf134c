import Anunix.Error
import Anunix.Uuid
import Anunix.Lib.Fallible
import Anunix.Lib.Run

/-!
# The scheduler queues

`kernel/core/sched/scheduler.c`: cells wait in one queue for each class, highest priority first. The
circular list of a queue is the list of its entries from the head on. What the cell store and the
admission checks answer is left open: each call comes with the answers it gets (`Around`).
-/

namespace Anunix.Sched
open Fallible List Function

/-- The number of queue classes (C `ANX_QUEUE_CLASS_COUNT`). -/
def queueClassCount : Int := 6

/-- The highest priority (C `ANX_PRIO_CRITICAL`). -/
def prioCritical : Int := 3

/-- The entries the heap has room for: its span has at most `MAX_PAGES` pages, and an entry with its
    header takes an object of 64 bytes. -/
def heapEntries : Nat := 2 ^ 20 * (4096 / 64)

/-- A waiting cell (C `struct anx_sched_entry`). -/
structure Entry where
  cellId : Uuid
  queue : Int
  priority : Int
  enqueuedAt : UInt64

structure Queue where
  entries : List Entry
  depth : UInt32

structure Scheduler where
  queues : Int → Queue
  initialized : Bool

/-- What the checks say of a cell in the store: its status, `anx_sched_domain_check_queue` and
    `anx_continuation_group_check`. -/
structure Cell where
  terminal : Bool
  domain : Int → Int → Except Err Unit
  group : Except Err Unit

structure Around where
  lookup : Uuid → Option Cell
  inCell : Bool
  zalloc : Bool
  now : UInt64

def boot : Scheduler := ⟨fun _ => ⟨[], 0⟩, false⟩

/-- C `anx_sched_init`, outside of a cell. -/
def init : Scheduler := { boot with initialized := true }

/-- A cell that is not in the store is admitted. -/
def allowed (r : Around) (queue priority : Int) (cellId : Uuid) : Except Err Unit :=
  match r.lookup cellId with
  | none => .ok ()
  | some cell => do
    failIf cell.terminal Err.eperm
    cell.domain queue priority
    cell.group

/-- Insert before the first entry of a lower priority. -/
def insertEntry (entry : Entry) (entries : List Entry) : List Entry :=
  entries.orderedInsert (fun entry existing => existing.priority < entry.priority) entry

/-- C `anx_sched_enqueue`. -/
def enqueue (r : Around) (cellId : Option Uuid) (queue priority : Int) :
    EStateM Err Scheduler Unit := do
  let cellId ← orThrow cellId Err.einval
  failIf (queue < 0 || queueClassCount ≤ queue) Err.einval
  failIf (priority < 0 || prioCritical < priority) Err.einval
  MonadExcept.ofExcept (allowed r queue priority cellId)
  let s ← get
  failIf (!s.initialized && r.inCell) Err.eperm
  modify fun s => if s.initialized then s else init
  failIf (!r.zalloc || heapEntries ≤ (s.queues queue).entries.length) Err.enomem
  modify fun s =>
    let q := s.queues queue
    let q' := ⟨insertEntry ⟨cellId, queue, priority, r.now⟩ q.entries, q.depth + 1⟩
    { s with queues := update s.queues queue q' }

def admits (r : Around) (queue : Int) (entry : Entry) : Bool :=
  (allowed r queue entry.priority entry.cellId).isOk

/-- The loop of `anx_sched_dequeue`: unlink entries at the head until one is admitted. -/
def takeFirst (admits : Entry → Bool) : List Entry → Option Uuid × List Entry
  | [] => (none, [])
  | entry :: rest => if admits entry then (some entry.cellId, rest) else takeFirst admits rest

/-- Entries are unlinked until `rest` is left, and the depth is counted down for each. -/
def Queue.leave (q : Queue) (rest : List Entry) : Queue :=
  ⟨rest, q.depth - UInt32.ofNat (q.entries.length - rest.length)⟩

/-- C `anx_sched_dequeue`; `out` says whether the caller gave a place for the result. -/
def dequeue (r : Around) (out : Bool) (queue : Int) : EStateM Err Scheduler Uuid := do
  failIf (!out) Err.einval
  failIf (queue < 0 || queueClassCount ≤ queue) Err.einval
  let s ← get
  failIf (!s.initialized) Err.enoent
  let taken := takeFirst (admits r queue) (s.queues queue).entries
  modify fun s => { s with queues := update s.queues queue ((s.queues queue).leave taken.2) }
  orThrow taken.1 Err.enoent

/-- C `anx_sched_queue_depth`. -/
def queueDepth (s : Scheduler) (queue : Int) : UInt32 :=
  if queue < 0 || queueClassCount ≤ queue then 0 else (s.queues queue).depth

/-- The pass of `anx_sched_cancel` over one queue. -/
def Queue.cancel (cellId : Uuid) (q : Queue) : Queue :=
  q.leave (q.entries.filter (·.cellId ≠ cellId))

/-- C `anx_sched_cancel`. -/
def cancel (cellId : Option Uuid) : EStateM Err Scheduler Unit := do
  let cellId ← orThrow cellId Err.einval
  let s ← get
  failIf (!s.initialized) Err.enoent
  modify fun s => { s with queues := fun i => (s.queues i).cancel cellId }
  failIf (!(range queueClassCount.toNat).any fun i =>
    (s.queues i).entries.any (·.cellId = cellId)) Err.enoent

/-! ## Calls -/

inductive Call where
  | enqueue (r : Around) (cellId : Option Uuid) (queue priority : Int)
  | dequeue (r : Around) (out : Bool) (queue : Int)
  | cancel (cellId : Option Uuid)

def Call.exec : Call → EStateM Err Scheduler (Option Uuid)
  | enqueue r cellId queue priority => (fun _ => none) <$> Sched.enqueue r cellId queue priority
  | dequeue r out queue => some <$> Sched.dequeue r out queue
  | cancel cellId => (fun _ => none) <$> Sched.cancel cellId

def step (s : Scheduler) (call : Call) : Scheduler := final call.exec s

def Scheduler.waiting (s : Scheduler) (queue : Int) : List Entry := (s.queues queue).entries

/-- What a call makes of the waiting entries. A new entry goes behind those of its priority or a
    higher one; the entries ahead of the one that is handed out are the ones that were not
    admitted. -/
def Call.Behaves (s s' : Scheduler) : Call → Except Err (Option Uuid) → Prop
  | enqueue r cellId queue priority, .ok _ => ∃ id, cellId = some id ∧
      s'.waiting = update s.waiting queue ((s.waiting queue).filter (priority ≤ ·.priority) ++
        ⟨id, queue, priority, r.now⟩ :: (s.waiting queue).filter (·.priority < priority))
  | dequeue r _ queue, .ok id => ∃ dropped entry rest, s.waiting queue = dropped ++ entry :: rest ∧
      (∀ d ∈ dropped, admits r queue d = false) ∧ admits r queue entry = true ∧
      id = some entry.cellId ∧ s'.waiting = update s.waiting queue rest
  | dequeue r _ queue, .error e =>
    if e = .enoent then (∀ d ∈ s.waiting queue, admits r queue d = false) ∧
      s'.waiting = update s.waiting queue []
    else s'.waiting = s.waiting
  | cancel (some id), _ => s'.waiting = fun queue => (s.waiting queue).filter (·.cellId ≠ id)
  | _, _ => s'.waiting = s.waiting

def ByPriority (entries : List Entry) : Prop :=
  entries.Pairwise fun a b => b.priority ≤ a.priority

def Call.enqueues (cellId : Uuid) : Call → Prop
  | enqueue _ id _ _ => id = some cellId
  | _ => False

/-! ## Ordered queues -/

structure Queue.Ordered (q : Queue) : Prop where
  sorted : ByPriority q.entries
  counted : q.depth.toNat = q.entries.length
  small : q.entries.length ≤ heapEntries

/-- Before the first entry the scheduler is as at the start. -/
structure Sound (s : Scheduler) : Prop where
  ordered : ∀ i, (s.queues i).Ordered
  idle : s.initialized = false → s = boot

lemma heapEntries_lt : heapEntries < 2 ^ 32 := by
  decide

section Entries

variable {entry : Entry} {l : List Entry} {q : Queue}

lemma insertEntry_eq (h : ByPriority l) : insertEntry entry l =
    l.filter (entry.priority ≤ ·.priority) ++ entry :: l.filter (·.priority < entry.priority) := by
  induction l with
  | nil => rfl
  | cons x rest ih =>
    obtain ⟨hx, hrest⟩ := pairwise_cons.mp h
    rw [insertEntry, orderedInsert]
    split
    · rename_i hlt
      -- From `x` on every entry has a lower priority than the new one.
      have hlow : ∀ b ∈ x :: rest, b.priority < entry.priority :=
        forall_mem_cons.mpr ⟨hlt, fun b hb => Int.lt_of_le_of_lt (hx b hb) hlt⟩
      rw [filter_eq_nil_iff.mpr (by simpa using hlow), filter_eq_self.mpr (by simpa using hlow)]
      rfl
    · rename_i hge
      rw [filter_cons_of_pos (by simpa using hge), filter_cons_of_neg (by simpa using hge)]
      exact congrArg (x :: ·) (ih hrest)

lemma Queue.Ordered.insert (h : q.Ordered) (hroom : q.entries.length < heapEntries)
    (entry : Entry) : Queue.Ordered ⟨insertEntry entry q.entries, q.depth + 1⟩ := by
  have hlen : (insertEntry entry q.entries).length = q.entries.length + 1 := orderedInsert_length ..
  refine ⟨?_, ?_, hlen ▸ hroom⟩
  · rw [ByPriority, insertEntry_eq h.sorted, pairwise_append, pairwise_cons]
    refine ⟨h.sorted.filter _, ⟨fun b hb => ?_, h.sorted.filter _⟩, fun a ha b hb => ?_⟩
    · exact Int.le_of_lt (by simpa using of_mem_filter hb)
    · have ha : entry.priority ≤ a.priority := by simpa using of_mem_filter ha
      rcases mem_cons.mp hb with rfl | hb
      · exact ha
      · exact Int.le_trans (Int.le_of_lt (by simpa using of_mem_filter hb)) ha
  · have hbig := heapEntries_lt
    rw [UInt32.toNat_add, h.counted, hlen]
    exact Nat.mod_eq_of_lt (by rw [UInt32.toNat_one]; omega)

lemma Queue.Ordered.leave (h : q.Ordered) (hl : l.Sublist q.entries) : (q.leave l).Ordered := by
  have hle := hl.length_le
  have hsmall := h.small
  refine ⟨h.sorted.sublist hl, ?_, Nat.le_trans hle hsmall⟩
  have hbig := heapEntries_lt
  have hn : (UInt32.ofNat (q.entries.length - l.length)).toNat = q.entries.length - l.length :=
    UInt32.toNat_ofNat_of_lt' (by rw [UInt32.size]; omega)
  rw [Queue.leave, UInt32.toNat_sub_of_le, h.counted]
  · dsimp only
    omega
  · rw [UInt32.le_iff_toNat_le, hn, h.counted]
    exact Nat.sub_le ..

lemma takeFirst_spec (admits : Entry → Bool) (l : List Entry) :
    match takeFirst admits l with
    | (some id, rest) => ∃ dropped entry, l = dropped ++ entry :: rest ∧
        (∀ d ∈ dropped, admits d = false) ∧ admits entry = true ∧ id = entry.cellId
    | (none, rest) => rest = [] ∧ ∀ d ∈ l, admits d = false := by
  induction l with
  | nil => exact ⟨rfl, nofun⟩
  | cons x l ih =>
    rw [takeFirst]
    cases hx : admits x with
    | true => exact ⟨[], x, rfl, nofun, hx, rfl⟩
    | false =>
      revert ih
      rcases takeFirst admits l with ⟨_ | id, rest⟩
      · rintro ⟨rfl, hall⟩
        exact ⟨rfl, forall_mem_cons.mpr ⟨hx, hall⟩⟩
      · rintro ⟨dropped, entry, rfl, hd, he⟩
        exact ⟨x :: dropped, entry, rfl, forall_mem_cons.mpr ⟨hx, hd⟩, he⟩

end Entries

section Calls

variable {s s' : Scheduler} {q : Queue}

lemma Sound.put (h : Sound s) (queue : Int) (hq : q.Ordered) (hi : s.initialized = true) :
    Sound { s with queues := update s.queues queue q } where
  ordered := (forall_update_iff s.queues fun _ => Queue.Ordered).mpr ⟨hq, fun i _ => h.ordered i⟩
  idle hidle := absurd (hi.symm.trans hidle) nofun

lemma waiting_put (s : Scheduler) (queue : Int) (q : Queue) :
    Scheduler.waiting { s with queues := update s.queues queue q } =
    update s.waiting queue q.entries :=
  comp_update Queue.entries s.queues queue q

lemma boot_sound : Sound boot :=
  ⟨fun _ => ⟨.nil, rfl, Nat.zero_le _⟩, fun _ => rfl⟩

def Correct (call : Call) (s : Scheduler) : Prop :=
  Ends call.exec s (fun id s' => Sound s' ∧ call.Behaves s s' (.ok id))
    fun e s' => Sound s' ∧ call.Behaves s s' (.error e)

section

variable (h : Sound s)
include h

lemma enqueue_correct (r : Around) (cellId : Option Uuid) (queue priority : Int) :
    Correct (.enqueue r cellId queue priority) s := by
  have hsame (e : Err) :
      Covered (Sound s ∧ (Call.enqueue r cellId queue priority).Behaves s s (.error e)) :=
    ⟨h, rfl⟩
  refine .map (.fetch fun id hid => .guard fun _ => .guard fun _ => .lift fun _ _ => .get_bind ?_)
  refine .guard fun _ => .modify_bind ?_
  generalize hs1 : (if s.initialized = true then s else init) = s1
  have hready : Sound s1 ∧ s1.initialized = true ∧ s1.queues = s.queues := by
    subst hs1
    cases hi : s.initialized with
    | true => exact ⟨h, hi, rfl⟩
    | false =>
      rw [h.idle hi]
      exact ⟨⟨boot_sound.ordered, nofun⟩, rfl, rfl⟩
  obtain ⟨hsound, hinit, hqueues⟩ := hready
  have hwait : s1.waiting = s.waiting := congrArg (fun q i => Queue.entries (q i)) hqueues
  refine .failIf_bind (fun _ => ⟨hsound, hwait⟩) fun hroom => .modify ?_
  have hq := hsound.ordered queue
  rw [← hqueues] at hroom
  obtain ⟨-, hlt⟩ : r.zalloc = true ∧ (s1.queues queue).entries.length < heapEntries := by
    simpa using hroom
  refine ⟨hsound.put queue (hq.insert hlt _) hinit, id, hid, ?_⟩
  rw [← hwait]
  exact (waiting_put ..).trans (congrArg (update s1.waiting queue) (insertEntry_eq hq.sorted))

lemma dequeue_correct (r : Around) (out : Bool) (queue : Int) :
    Correct (.dequeue r out queue) s := by
  have hsame : Covered (Sound s ∧ (Call.dequeue r out queue).Behaves s s (.error .einval)) :=
    ⟨h, rfl⟩
  refine .map (.guard fun _ => .guard fun _ =>
    .get_bind (.failIf_bind (fun hi => ⟨h, ?_⟩) fun hi => .modify_bind ?_))
  · rw [h.idle (by simpa using hi)]
    exact ⟨nofun, (update_eq_self ..).symm⟩
  · have hspec := takeFirst_spec (admits r queue) (s.queues queue).entries
    have hput :=
      fun rest hl => h.put queue ((h.ordered queue).leave (l := rest) hl) (by simpa using hi)
    revert hspec
    rcases takeFirst (admits r queue) (s.queues queue).entries with ⟨_ | id, rest⟩
    · rintro ⟨rfl, hall⟩
      exact ⟨hput [] (nil_sublist _), hall, waiting_put ..⟩
    · rintro ⟨dropped, entry, he, hd, ha, rfl⟩
      refine ⟨hput rest ?_, dropped, entry, rest, he, hd, ha, rfl, waiting_put ..⟩
      rw [he]
      exact (sublist_cons_self entry rest).trans (sublist_append_right dropped _)

lemma cancel_correct (cellId : Option Uuid) : Correct (.cancel cellId) s := by
  refine .map (.orThrow_bind (fun he => he ▸ ⟨h, rfl⟩) fun id hid => .get_bind ?_)
  subst hid
  refine .failIf_bind (fun hi => ⟨h, ?_⟩) fun hi => .modify_bind ?_
  · rw [h.idle (by simpa using hi)]
    rfl
  · have hsound : Sound { s with queues := fun i => (s.queues i).cancel id } := by
      refine ⟨fun i => (h.ordered i).leave filter_sublist, fun hidle => ?_⟩
      simp [show s.initialized = false from hidle] at hi
    unfold failIf
    split <;> exact ⟨hsound, rfl⟩

lemma exec_correct (call : Call) : Correct call s := by
  cases call with
  | enqueue r cellId queue priority => exact enqueue_correct h r cellId queue priority
  | dequeue r out queue => exact dequeue_correct h r out queue
  | cancel cellId => exact cancel_correct h cellId

lemma step_correct (call : Call) :
    Sound (step s call) ∧ call.Behaves s (step s call) (outcome call.exec s) :=
  Ends.both (P := fun a s' => Sound s' ∧ call.Behaves s s' a) (exec_correct h call)

end

lemma sound_after (ops : List Call) (n : Nat) : Sound (Run.after step boot ops n) :=
  Run.after_invariant step boot_sound (fun _ call h => (step_correct h call).1) n

/-- The waiting entries of one priority. -/
def Scheduler.line (s : Scheduler) (queue priority : Int) : List Entry :=
  (s.waiting queue).filter (·.priority = priority)

lemma filter_insert (l : List Entry) (entry : Entry) (p : Int) :
    (l.filter (entry.priority ≤ ·.priority) ++ entry ::
      l.filter (·.priority < entry.priority)).filter
        (·.priority = p) = l.filter (·.priority = p) ++ [entry].filter (·.priority = p) := by
  rw [filter_append, ← singleton_append, filter_append, filter_filter, filter_filter]
  by_cases hp : entry.priority ≤ p
  · have hahead : l.filter (fun x => x.priority = p && entry.priority ≤ x.priority) =
        l.filter (·.priority = p) := filter_congr fun x _ => by simp; omega
    have hbehind : l.filter (fun x => x.priority = p && x.priority < entry.priority) = [] :=
      filter_eq_nil_iff.mpr fun x _ => by simp; omega
    rw [hahead, hbehind, append_nil]
  · have hahead : l.filter (fun x => x.priority = p && entry.priority ≤ x.priority) = [] :=
      filter_eq_nil_iff.mpr fun x _ => by simp; omega
    have hbehind : l.filter (fun x => x.priority = p && x.priority < entry.priority) =
        l.filter (·.priority = p) := filter_congr fun x _ => by simp; omega
    have hnew : [entry].filter (·.priority = p) = [] := filter_eq_nil_iff.mpr fun x hx => by
      simp_all; omega
    rw [hahead, hbehind, hnew, nil_append, nil_append, append_nil]

/-- Of the entries of one priority a call takes some away, and what it adds goes to the end. -/
lemma Call.Behaves.line {call : Call} {a : Except Err (Option Uuid)} (h : call.Behaves s s' a)
    (i p : Int) : ∃ kept added, s'.line i p = kept ++ added ∧ kept.Sublist (s.line i p) ∧
      ∀ e ∈ added, call.enqueues e.cellId := by
  have hless {w : Int → List Entry} (hw : s'.waiting = w) (hsub : (w i).Sublist (s.waiting i)) :
      ∃ kept added, s'.line i p = kept ++ added ∧ kept.Sublist (s.line i p) ∧
        ∀ e ∈ added, call.enqueues e.cellId := by
    refine ⟨_, [], (append_nil _).symm, ?_, nofun⟩
    rw [Scheduler.line, hw]
    exact hsub.filter _
  have hupdate {queue : Int} {l : List Entry} (hl : l.Sublist (s.waiting queue)) :
      (update s.waiting queue l i).Sublist (s.waiting i) :=
    (forall_update_iff s.waiting fun i l => l.Sublist (s.waiting i)).mpr ⟨hl, fun _ _ => .refl _⟩ i
  cases call with
  | enqueue r cellId queue priority =>
    cases a with
    | error e => exact hless h (.refl _)
    | ok _ =>
      obtain ⟨id, rfl, hwait⟩ := h
      by_cases hi : i = queue
      · subst hi
        refine ⟨s.line i p, [⟨id, i, priority, r.now⟩].filter (·.priority = p), ?_, .refl _,
          fun e he => ?_⟩
        · rw [Scheduler.line, hwait, update_self]
          exact filter_insert (s.waiting i) ⟨id, i, priority, r.now⟩ p
        · rw [mem_singleton.mp (mem_of_mem_filter he)]
          rfl
      · refine ⟨s.line i p, [], ?_, .refl _, nofun⟩
        rw [Scheduler.line, hwait, update_of_ne hi, append_nil]
        rfl
  | dequeue r out queue =>
    cases a with
    | error e =>
      rw [Behaves] at h
      split at h
      · exact hless h.2 (hupdate (nil_sublist _))
      · exact hless h (.refl _)
    | ok id =>
      obtain ⟨dropped, entry, rest, hq, -, -, -, hwait⟩ := h
      refine hless hwait (hupdate ?_)
      rw [hq]
      exact (sublist_cons_self entry rest).trans (sublist_append_right dropped _)
  | cancel id =>
    cases id with
    | none => exact hless h (.refl _)
    | some id => exact hless h filter_sublist

/-- Over any run, cells of one priority wait in the order they came: a later line is what is left of
an earlier one and, behind it, the cells enqueued in between. -/
lemma line_after (ops : List Call) (i p : Int) {m n : Nat} (hmn : m ≤ n) :
    ∃ kept added, (Run.after step boot ops n).line i p = kept ++ added ∧
      kept.Sublist ((Run.after step boot ops m).line i p) ∧
      ∀ e ∈ added, ∃ k c, m ≤ k ∧ k < n ∧ ops[k]? = some c ∧ c.enqueues e.cellId := by
  refine Run.after_from step (I := fun n s => ∃ kept added, s.line i p = kept ++ added ∧
    kept.Sublist ((Run.after step boot ops m).line i p) ∧
    ∀ e ∈ added, ∃ k c, m ≤ k ∧ k < n ∧ ops[k]? = some c ∧ c.enqueues e.cellId) hmn
    ⟨_, [], (append_nil _).symm, .refl _, nofun⟩ ?_ ?_
  · rintro j - ⟨kept, added, hline, hkept, hadded⟩
    refine ⟨kept, added, hline, hkept, fun e he => ?_⟩
    obtain ⟨k, c, hmk, hkj, hc⟩ := hadded e he
    exact ⟨k, c, hmk, Nat.lt_succ_of_lt hkj, hc⟩
  · rintro j call hmj - hcall ⟨kept, added, hline, hkept, hadded⟩
    obtain ⟨kept', added', hline', hkept', hadded'⟩ :=
      (step_correct (sound_after ops j) call).2.line i p
    rw [hline] at hkept'
    obtain ⟨old, new, rfl, hold, hnew⟩ := sublist_append_iff.mp hkept'
    refine ⟨old, new ++ added', by rw [hline', append_assoc], hold.trans hkept, fun e he => ?_⟩
    rcases mem_append.mp he with he | he
    · obtain ⟨k, c, hmk, hkj, hc⟩ := hadded e (hnew.subset he)
      exact ⟨k, c, hmk, Nat.lt_succ_of_lt hkj, hc⟩
    · exact ⟨j, call, hmj, Nat.lt_succ_self j, hcall, hadded' e he⟩

end Calls

/-- Over any run the queues serve by priority, and a cancelled cell is not handed out before it is
enqueued again. -/
theorem queues_serve_by_priority (ops : List Call) (n : Nat) (call : Call)
    (hop : ops[n]? = some call) : let s := Run.after step boot ops n
    (∀ queue, ByPriority (s.waiting queue)) ∧
    call.Behaves s (Run.after step boot ops (n + 1)) (outcome call.exec s) ∧
    (∀ queue, 0 ≤ queue → queue < queueClassCount →
      (queueDepth s queue).toNat = (s.waiting queue).length) ∧
    ∀ m cellId, m < n → ops[m]? = some (.cancel (some cellId)) →
      (∀ k c, m < k → k < n → ops[k]? = some c → ¬ c.enqueues cellId) →
      ∀ r out queue, call = .dequeue r out queue → outcome call.exec s ≠ .ok (some cellId) := by
  intro s
  have hs := sound_after ops n
  have hb := (step_correct hs call).2
  refine ⟨fun queue => (hs.ordered queue).sorted, ?_, fun queue hlow hhigh => ?_, ?_⟩
  · rw [Run.after_succ step hop]
    exact hb
  · rw [queueDepth, if_neg (by simp; omega)]
    exact (hs.ordered queue).counted
  · intro m cellId hm hcancel hnot r out queue hcall hout
    -- no queue holds the cell after the cancellation, and what comes later was enqueued later
    have habsent : ∀ i, ∀ e ∈ s.waiting i, e.cellId ≠ cellId := by
      intro i e he
      obtain ⟨kept, added, hline, hkept, hadded⟩ := line_after ops i e.priority hm
      have hmem : e ∈ kept ++ added := hline ▸ mem_filter.mpr ⟨he, by simp⟩
      rcases mem_append.mp hmem with hold | hnew
      · have he := mem_of_mem_filter (hkept.subset hold)
        rw [Run.after_succ step hcancel] at he
        rw [show Scheduler.waiting _ = _ from
          (step_correct (sound_after ops m) (.cancel (some cellId))).2] at he
        simpa using of_mem_filter he
      · obtain ⟨k, c, hmk, hkn, hc, hen⟩ := hadded e hnew
        exact fun hid => hnot k c hmk hkn hc (hid ▸ hen)
    rw [hout, hcall] at hb
    obtain ⟨dropped, entry, rest, hq, -, -, he, -⟩ := hb
    refine habsent queue entry ?_ (Option.some.inj he).symm
    rw [hq]
    exact mem_append_right _ mem_cons_self

def openAround : Around := ⟨fun _ => none, false, true, 0⟩

/-- The later cell of the higher priority is served first. -/
theorem queues_serve_by_priority_two :
    let ops := [Call.enqueue openAround (some ⟨0, 1⟩) 3 1, .enqueue openAround (some ⟨0, 2⟩) 3 2,
      .dequeue openAround true 3]
    (queueDepth (Run.after step boot ops 2) 3).toNat =
      ((Run.after step boot ops 2).waiting 3).length ∧
      outcome (Call.dequeue openAround true 3).exec (Run.after step boot ops 2) =
      .ok (some ⟨0, 2⟩) := by
  intro ops
  exact ⟨(queues_serve_by_priority ops 2 _ rfl).2.2.1 3 (by decide) (by decide), rfl⟩

end Anunix.Sched
