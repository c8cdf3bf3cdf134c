import Anunix.Object.Ballots

/-!
# Payloads of stored objects

What a write makes of a payload, and what every object keeps along a run: its payload has the bytes
that its size says, its hash is that of the payload, and its version counts the calls that put a
payload in place.

`anx_so_write_payload` leaves what it finds in the memory between the old end and the offset. It
passes the end of the write to `anx_alloc`, which adds its header in 64 bits and counts pages in 32.
-/

namespace Anunix.Object
open Fallible List

/-! ## Writes -/

/-- A payload with `data` at an offset, behind `fill` where it was shorter. -/
def placed (fill : Nat → UInt8) (old : List UInt8) (offset : Nat) (data : List UInt8) :
    List UInt8 :=
  (old ++ (range (offset - old.length)).map fill).take offset ++ data ++
    old.drop (offset + data.length)

def Payload.Sized (p : Payload) : Prop :=
  p.size.toNat = p.bytes.length

section Write

variable {p : Payload} {offset : UInt64} {data : Buffer} {fill : Nat → UInt8}
  {old bytes : List UInt8} {n : Nat}

lemma length_placed : (placed fill old n bytes).length = max old.length (n + bytes.length) := by
  simp [placed]
  omega

lemma placed_congr {fill' : Nat → UInt8} (h : ∀ j < n - old.length, fill j = fill' j) :
    placed fill old n bytes = placed fill' old n bytes := by
  rw [placed, placed, map_congr_left fun j hj => h j (List.mem_range.mp hj)]

lemma placed_inj {fill' : Nat → UInt8} (h : placed fill old n bytes = placed fill' old n bytes) :
    ∀ j < n - old.length, fill j = fill' j := by
  intro j hj
  have hlen (f : Nat → UInt8) : (old ++ (range (n - old.length)).map f).length = n := by
    simp
    omega
  rw [placed, placed, append_assoc, append_assoc] at h
  have hfront := append_inj_left h (by simp)
  rw [take_of_length_le (hlen fill).le, take_of_length_le (hlen fill').le,
    append_cancel_left_eq] at hfront
  exact map_inj_left.mp hfront j (List.mem_range.mpr hj)

lemma take_fill {k : Nat} (h : n ≤ old.length + k) :
    (old ++ (range k).map fill).take n = (old ++ (range (n - old.length)).map fill).take n := by
  rw [take_append, take_append, ← map_take, ← map_take, take_range, take_range,
    Nat.min_self, Nat.min_eq_left (by omega)]

lemma copyIn_buffer {b : Buffer} (h : offset.toNat + bytes.length ≤ b.1.length) :
    ∃ q, (Payload.buffer b).copyIn offset bytes = some q ∧ q.Sized ∧
      q.bytes = b.1.take offset.toNat ++ bytes ++ b.1.drop (offset.toNat + bytes.length) := by
  cases bytes with
  | nil =>
    refine ⟨.buffer b, rfl, Payload.bytes_length b, ?_⟩
    rw [append_nil, length_nil, Nat.add_zero, take_append_drop]
    rfl
  | cons x rest => exact ⟨_, dif_pos h, Payload.bytes_length _, rfl⟩

/-- A payload has at most as many bytes as its size says. -/
lemma bytes_length_le (p : Payload) : p.bytes.length ≤ p.size.toNat := by
  cases p with
  | null n => exact Nat.zero_le _
  | buffer b => exact (Payload.bytes_length b).ge

lemma write_grown (hend : offset.toNat + data.1.length < 2 ^ 64)
    (hgrow : p.size < offset + UInt64.ofNat data.1.length)
    (hblock : (offset + UInt64.ofNat data.1.length).toNat ≤
      allocBytes (offset + UInt64.ofNat data.1.length)) :
    ∃ q, p.write offset data fill = some q ∧ q.Sized ∧
    q.bytes = placed fill p.bytes offset.toNat data.1 := by
  have hnew := (toNat_end offset data).trans (Nat.mod_eq_of_lt hend)
  have hle := bytes_length_le p
  have hlt := UInt64.lt_iff_toNat_lt.mp hgrow
  have hlen : (p.grow _ hblock fill).1.length = _ := grown_length p _ fill
  rw [hnew] at hlen
  obtain ⟨q, hq, hsized, hbytes⟩ := copyIn_buffer (Nat.le_of_eq hlen.symm)
  refine ⟨q, (if_pos hgrow).trans ((dif_pos hblock).trans hq), hsized, hbytes.trans ?_⟩
  rw [placed, drop_eq_nil_of_le (Nat.le_of_eq hlen), drop_eq_nil_of_le (by omega)]
  simp only [Payload.grow]
  rw [take_take, Nat.min_eq_left (by omega), take_fill (by omega)]

lemma write_inside (hgrow : ¬ p.size < offset + UInt64.ofNat data.1.length)
    (hin : offset.toNat + data.1.length ≤ p.bytes.length) :
    ∃ q, p.write offset data fill = some q ∧ q.size = p.size ∧
    q.bytes = placed fill p.bytes offset.toNat data.1 := by
  rw [Payload.write, if_neg hgrow, placed, Nat.sub_eq_zero_of_le (by omega), range_zero,
    map_nil, append_nil]
  cases p with
  | null size =>
    have hzero : offset.toNat + data.1.length ≤ 0 := hin
    have hnil : data.1 = [] := eq_nil_of_length_eq_zero (by omega)
    exact ⟨.null size, by rw [hnil]; rfl, rfl, by simp [hnil, Payload.bytes]⟩
  | buffer b =>
    obtain ⟨q, hq, hsized, hbytes⟩ := copyIn_buffer hin
    refine ⟨q, hq, UInt64.toNat_inj.mp ?_, hbytes⟩
    rw [show q.size.toNat = _ from hsized, Payload.bytes_length b, hbytes]
    have hin : offset.toNat + data.1.length ≤ b.1.length := hin
    simp
    omega

lemma write_placed (hp : p.Sized) (hend : offset.toNat + data.1.length ≤ 2 ^ 43 - 8) :
    ∃ q, p.write offset data fill = some q ∧ q.Sized ∧
    q.bytes = placed fill p.bytes offset.toNat data.1 := by
  have hnew := (toNat_end offset data).trans (Nat.mod_eq_of_lt (by omega))
  have hsize : p.size.toNat = p.bytes.length := hp
  by_cases hgrow : p.size < offset + UInt64.ofNat data.1.length
  · exact write_grown (by omega) hgrow (le_allocBytes (hnew ▸ hend))
  · have hle := UInt64.le_iff_toNat_le.mp (UInt64.not_lt.mp hgrow)
    obtain ⟨q, hq, hqsize, hbytes⟩ := @write_inside p offset data fill hgrow (by omega)
    refine ⟨q, hq, ?_, hbytes⟩
    rw [Payload.Sized, hqsize, hbytes, length_placed]
    omega

/-- A write whose end does not wrap. If it grows the payload, the block is large enough for the
new end and zero up to the offset; if not, it stays inside the bytes that are there. -/
structure Payload.Fits (p : Payload) (offset : UInt64) (data : Buffer) (junk : Nat → UInt8) :
    Prop where
  ends : offset.toNat + data.1.length < 2 ^ 64
  grown : p.size < offset + UInt64.ofNat data.1.length →
    (offset + UInt64.ofNat data.1.length).toNat ≤ allocBytes (offset + UInt64.ofNat data.1.length) ∧
      ∀ j < offset.toNat - p.bytes.length, junk j = 0
  inside : ¬ p.size < offset + UInt64.ofNat data.1.length →
    offset.toNat + data.1.length ≤ p.bytes.length

/-- A write that does not wrap does what is meant exactly if it fits. -/
lemma write_right (hend : offset.toNat + data.1.length < 2 ^ 64) :
    (∃ q, p.write offset data fill = some q ∧
      q.bytes = placed (fun _ => 0) p.bytes offset.toNat data.1 ∧
      q.size.toNat = max p.size.toNat (offset.toNat + data.1.length)) ↔
      p.Fits offset data fill := by
  have hnew := (toNat_end offset data).trans (Nat.mod_eq_of_lt hend)
  by_cases hgrow : p.size < offset + UInt64.ofNat data.1.length
  · have hlt := UInt64.lt_iff_toNat_lt.mp hgrow
    have hle := bytes_length_le p
    constructor
    · rintro ⟨q, hq, hbytes, -⟩
      have hblock : (offset + UInt64.ofNat data.1.length).toNat ≤
          allocBytes (offset + UInt64.ofNat data.1.length) := by
        by_contra hno
        cases hq.symm.trans ((if_pos hgrow).trans (dif_neg hno))
      obtain ⟨q', hq', -, hbytes'⟩ := write_grown hend hgrow hblock
      cases hq.symm.trans hq'
      exact ⟨hend, fun _ => ⟨hblock, placed_inj (hbytes'.symm.trans hbytes)⟩,
        fun h => absurd hgrow h⟩
    · rintro ⟨-, hgrown, -⟩
      obtain ⟨hblock, hzero⟩ := hgrown hgrow
      obtain ⟨q, hq, hsized, hbytes⟩ := write_grown hend hgrow hblock
      refine ⟨q, hq, hbytes.trans (placed_congr hzero), ?_⟩
      rw [show q.size.toNat = _ from hsized, hbytes, length_placed]
      omega
  · have hle := UInt64.le_iff_toNat_le.mp (UInt64.not_lt.mp hgrow)
    constructor
    · rintro ⟨q, hq, hbytes, -⟩
      refine ⟨hend, fun h => absurd h hgrow, fun _ => ?_⟩
      rw [Payload.write, if_neg hgrow] at hq
      by_contra hno
      have hnil : data.1 = [] := by
        by_contra hne
        cases hq.symm.trans (copyIn_eq_none.mpr ⟨hne, Nat.lt_of_not_le hno⟩)
      rw [hnil] at hq hbytes hno
      cases hq.symm.trans (show p.copyIn offset [] = some p by cases p <;> rfl)
      have hlen := congrArg length hbytes
      rw [length_placed] at hlen
      omega
    · rintro ⟨-, -, hinside⟩
      obtain ⟨q, hq, hsize, hbytes⟩ := write_inside hgrow (hinside hgrow)
      have := hinside hgrow
      refine ⟨q, hq, hbytes.trans (placed_congr fun j hj => absurd hj (by omega)), ?_⟩
      rw [hsize]
      omega

end Write

/-- What a write has to pass before it touches a payload. -/
structure Store.TakesWrite (s : Store) (env : Env) (h : Nat) (offset : UInt64) (data : Buffer)
    (addr : Nat) (obj : StateObject) : Prop where
  held : s.held h = some (addr, obj)
  mode : (s.handles h).mode ≠ .read
  unsealed : obj.state ≠ .sealed
  writer : obj.stageCheckWriter env.current = .ok ()
  room : obj.target.size < offset + UInt64.ofNat data.1.length → env.alloc = true

section Takes

variable {s : Store} {env : Env} {h : Nat} {offset : UInt64} {data : Buffer}

lemma soWritePayload_takes : Ends (soWritePayload env h offset data) s
    (fun _ s' => ∃ addr obj, s.TakesWrite env h offset data addr obj ∧
      s' = match obj.target.write offset data env.junk with
        | some p => s.setObject addr (obj.assign s.sha256 p)
        | none => { s with objects := env.stray s.objects })
    fun _ s' => s' = s ∧ ∀ addr obj, ¬ s.TakesWrite env h offset data addr obj := by
  refine .bind
    (.get_bind (.orThrow_bind (fun hnone => ⟨rfl, fun _ _ ht => ?_⟩) fun ⟨addr, obj⟩ hheld => ?_))
  · cases hnone.symm.trans ht.held
  have same {addr' : Nat} {obj' : StateObject} (ht : s.TakesWrite env h offset data addr' obj') :
      obj' = obj := by
    cases hheld.symm.trans ht.held
    rfl
  refine .failIf_bind (fun hc => ⟨rfl, fun _ _ ht => ht.mode (by simpa using hc)⟩) fun hmode => ?_
  refine .failIf_bind (fun hc => ⟨rfl, fun _ _ ht => ht.unsealed (same ht ▸ by simpa using hc)⟩)
    fun hsealed => ?_
  refine .ofExcept_bind (fun e he => ⟨rfl, fun _ _ ht => ?_⟩) fun _ hwriter => ?_
  · cases he.symm.trans (same ht ▸ ht.writer)
  refine .failIf_bind (fun hc => ⟨rfl, fun _ _ ht => ?_⟩) fun hroom => ?_
  · have := ht.room
    rw [same ht] at this
    simp_all
  have htakes : s.TakesWrite env h offset data addr obj :=
    ⟨hheld, by simpa using hmode, by simpa using hsealed, hwriter, by simpa using hroom⟩
  cases hp : obj.target.write offset data env.junk <;> exact .modify ⟨addr, obj, htakes, by rw [hp]⟩

lemma target_assign {obj : StateObject} {sha256 : List UInt8 → Digest} {p : Payload} :
    (obj.assign sha256 p).target = p := by
  cases hstaged :
    obj.staged <;> simp [StateObject.assign, StateObject.target, StateObject.mutate, hstaged]

end Takes

/-- A write that succeeds puts its bytes in place, behind zeroes if need be, and one that cannot be
represented is refused. -/
structure WritesRight (env : Env) (s : Store) (h : Nat) (offset : UInt64) (data : Buffer) :
    Prop where
  places : (outcome (soWritePayload env h offset data) s).isOk = true → ∃ addr obj obj',
    s.held h = some (addr, obj) ∧ final (soWritePayload env h offset data) s =
    s.setObject addr obj' ∧ obj.target.write offset data env.junk = some obj'.target ∧
    obj'.target.bytes = placed (fun _ => 0) obj.target.bytes offset.toNat data.1 ∧
    obj'.target.size.toNat = max obj.target.size.toNat (offset.toNat + data.1.length)
  refuses : 2 ^ 64 ≤ offset.toNat + data.1.length →
    (outcome (soWritePayload env h offset data) s).isOk = false ∧
    final (soWritePayload env h offset data) s = s

/-- A write does what it says exactly if it is refused or fits the payload and its block. -/
theorem soWritePayload_places (env : Env) (s : Store) (h : Nat) (offset : UInt64) (data : Buffer) :
    WritesRight env s h offset data ↔
      ∀ addr obj, s.TakesWrite env h offset data addr obj →
      obj.target.Fits offset data env.junk := by
  cases hrun : soWritePayload env h offset data s with
  | error e s' =>
    obtain ⟨rfl, hno⟩ := soWritePayload_takes.of_error hrun
    refine iff_of_true ⟨fun hok => ?_, fun _ => ?_⟩ fun addr obj ht => absurd ht (hno addr obj)
    · simp [outcome, hrun, Except.toBool] at hok
    · simp [outcome, final, hrun, Except.toBool]
  | ok _ s' =>
    obtain ⟨addr, obj, htakes, hs'⟩ := soWritePayload_takes.of_ok hrun
    have hok : (outcome (soWritePayload env h offset data) s).isOk = true := by
      simp [outcome, hrun, Except.toBool]
    constructor
    · rintro ⟨hplaces, hrefuses⟩ addr' obj' ht
      have hend : offset.toNat + data.1.length < 2 ^ 64 := by
        by_contra hover
        exact absurd hok (by simp [(hrefuses (Nat.le_of_not_lt hover)).1])
      obtain ⟨_, _, obj1, hheld, -, hwrite⟩ := hplaces hok
      cases hheld.symm.trans ht.held
      exact (write_right hend).mp ⟨_, hwrite⟩
    · intro hfits
      have hfit := hfits addr obj htakes
      obtain ⟨q, hq, hbytes⟩ := (write_right hfit.ends).mpr hfit
      rw [hq] at hs'
      refine ⟨fun _ => ⟨addr, obj, obj.assign s.sha256 q, htakes.held, ?_, ?_⟩, fun hover => ?_⟩
      · simp [final, hrun, hs']
      · rw [target_assign]
        exact ⟨hq, hbytes⟩
      · exact absurd hfit.ends (Nat.not_lt.mpr hover)

def openTwoBytes (env : Env) : Store :=
  (Store.boot id).after [(.create twoBytes, env), (.openAs ⟨1, 1⟩ .readwrite 0, env)] 2

/-- Behind the end, the write leaves what the memory held. A write whose end wraps is not refused
and leaves the buffer. -/
theorem soWritePayload_fills :
    let env : Env := { Env.trusted fun _ => [] with junk := fun _ => 7 }
    ((final (soWritePayload env 0 4 (.ofList [3])) (openTwoBytes env)).objects.map
      fun obj => obj.payload.bytes) =
        [[1, 2, 7, 7, 3]] ∧
      (outcome (soWritePayload env 0 0xFFFFFFFFFFFFFFFF (.ofList [3, 4])) (openTwoBytes env)).isOk =
      true ∧
      (final (soWritePayload env 0 0xFFFFFFFFFFFFFFFF (.ofList [3, 4]))
        (openTwoBytes env)).objects = [] := by
  decide +kernel

/-! ## Objects along a run -/

/-- Arguments that agree with their size and end below `2^32`, as the hash counts the bytes. -/
def Call.Tame : Call → Prop
  | .create params => params.payload.bytes.length < 2 ^ 32
  | .write _ offset data => offset.toNat + data.1.length < 2 ^ 32
  | .replace _ data => data.Sized ∧ data.bytes.length < 2 ^ 32
  | _ => True

structure Payload.Short (p : Payload) : Prop where
  sized : p.Sized
  short : p.bytes.length < 2 ^ 32

structure StateObject.Coherent (sha256 : List UInt8 → Digest) (obj : StateObject) : Prop where
  live : obj.payload.Short
  shadow : ∀ stage, obj.staged = some stage → stage.shadow.Short
  hash : obj.contentHash = contentHashOf sha256 obj.payload

section Run

variable {s : Store} {c : Call × Env} {i : Nat} {obj obj' : StateObject} {p : Payload}
  {sha256 : List UInt8 → Digest} {n : Nat} {run : List (Call × Env)}

lemma Payload.Short.size_pos (h : p.Short) (hpos : 0 < p.size) :
    p.bytes.length = p.size.toNat ∧ contentHashOf sha256 p = sha256 p.bytes := by
  have hlen : p.size.toNat = p.bytes.length := h.sized
  have hne : p.bytes ≠ [] := by
    rintro hnil
    rw [hnil] at hlen
    exact absurd (UInt64.lt_iff_toNat_lt.mp hpos) (by simp [hlen])
  have hsize : p.size.toUInt32.toNat = p.bytes.length := by
    rw [UInt64.toNat_toUInt32, hlen, Nat.mod_eq_of_lt h.short]
  refine ⟨hlen.symm, ?_⟩
  rw [contentHashOf, if_pos (by simp [Payload.present, hne]), hsize, take_length]

lemma short_empty : Payload.empty.Short :=
  ⟨rfl, by decide⟩

lemma short_of_present (hp : p.bytes.length < 2 ^ 32) :
    (if p.present then p else .empty).Short := by
  split
  · rename_i hpresent
    exact ⟨(Payload.bytes_length_of_present hpresent).symm, hp⟩
  · exact short_empty

lemma Payload.Short.written (h : p.Short) (hc : c.1.Tame) : (s.written i c p).Short := by
  obtain ⟨x, env⟩ := c
  unfold Store.written
  split
  · rename_i offset data hx
    obtain rfl : x = _ := hx
    have hend : offset.toNat + data.1.length < 2 ^ 32 := hc
    obtain ⟨q, hq, hsized, hbytes⟩ := @write_placed p offset data env.junk h.sized (by omega)
    split
    · rw [hq]
      refine ⟨hsized, ?_⟩
      rw [Option.getD_some, hbytes, length_placed]
      exact Nat.max_lt.mpr ⟨h.short, hend⟩
    · exact h
  · rename_i data hx
    obtain rfl : x = _ := hx
    obtain ⟨hsized, hshort⟩ : data.Sized ∧ data.bytes.length < 2 ^ 32 := hc
    split
    · unfold Payload.replacement
      split
      · exact ⟨hsized, hshort⟩
      · rename_i habsent
        have hnil : data.bytes = [] := by simpa [Payload.present] using habsent
        rw [Payload.Sized, hnil] at hsized
        exact ⟨hsized, Nat.two_pow_pos 32⟩
    · exact h
  · exact h

lemma StateObject.Coherent.target (h : obj.Coherent sha256) : obj.target.Short := by
  unfold StateObject.target
  split
  · exact h.shadow _ ‹_›
  · exact h.live

lemma StateObject.Coherent.touch (h : obj.Coherent s.sha256) (hc : c.1.Tame)
    (ht : Touch s c i obj obj') : obj'.Coherent s.sha256 ∧
      (obj'.payload = obj.payload ∧ obj'.version = obj.version ∨
        obj'.version = obj.version + 1) := by
  cases ht with
  | keep => exact ⟨h, .inl ⟨rfl, rfl⟩⟩
  | label => exact ⟨⟨h.live, h.shadow, h.hash⟩, .inl ⟨rfl, rfl⟩⟩
  | sealing => exact ⟨⟨h.live, h.shadow, h.hash⟩, .inl ⟨rfl, rfl⟩⟩
  | delete => exact ⟨⟨h.live, h.shadow, h.hash⟩, .inl ⟨rfl, rfl⟩⟩
  | assign =>
    have hp := h.target.written (s := s) (i := i) hc
    unfold StateObject.assign
    cases hstaged : obj.staged with
    | none => exact ⟨⟨hp, fun stage hs => (nomatch hstaged.symm.trans hs), rfl⟩, .inr rfl⟩
    | some stage =>
      refine ⟨⟨h.live, fun stage' hs => ?_, h.hash⟩, .inl ⟨rfl, rfl⟩⟩
      cases hs
      exact hp
  | stage =>
    refine ⟨⟨h.live, fun stage hs => ?_, h.hash⟩, .inl ⟨rfl, rfl⟩⟩
    cases hs
    exact short_of_present h.live.short
  | @review _ stage hstaged =>
    refine ⟨⟨h.live, fun stage' hs => ?_, h.hash⟩, .inl ⟨rfl, rfl⟩⟩
    cases hs
    exact h.shadow stage hstaged
  | @resolve _ stage hstaged commit =>
    unfold StateObject.resolved
    rw [hstaged]
    cases commit with
    | true => exact ⟨⟨h.shadow stage hstaged, nofun, rfl⟩, .inr rfl⟩
    | false => exact ⟨⟨h.live, nofun, h.hash⟩, .inl ⟨rfl, rfl⟩⟩

/-- After `n` calls every object is coherent, with a version of `n` at most. -/
def Store.Coherent (s : Store) (n : Nat) : Prop :=
  ∀ (i : Nat) obj, s.objects[i]? = some obj → obj.Coherent s.sha256 ∧ obj.version.toNat ≤ n

lemma Store.Coherent.not_strays (h : s.Coherent n) (hc : c.1.Tame) : s.strays c = false := by
  obtain ⟨x, env⟩ := c
  unfold Store.strays
  split
  · rename_i hx
    obtain rfl : x = _ := hx
    split
    · rename_i offset data _ addr obj hheld
      have hend : offset.toNat + data.1.length < 2 ^ 32 := hc
      have hsized := (h addr obj (held_eq_some.mp hheld).2).1.target.sized
      obtain ⟨q, hq, -⟩ := @write_placed _ offset data env.junk hsized (by omega)
      rw [Bool.eq_false_iff]
      exact fun hover => nomatch hq.symm.trans (write_eq_none.mpr hover)
    · rfl
  · rfl

lemma step_sha256 (s : Store) (c : Call × Env) : (s.step c).sha256 = s.sha256 := by
  cases step_records s c with
  | same _ still => exact still.sha256
  | begins _ _ _ _ _ _ _ next => rw [next]; rfl
  | votes _ _ _ next => rw [next]; rfl
  | destroys _ next => rw [next]

/-- The step lemma: the objects stay coherent, and a version counts up by one when a payload is put
in place. -/
lemma Store.Coherent.step (h : s.Coherent n) (hc : c.1.Tame) (hn : n < 2 ^ 64 - 1) :
    (s.step c).Coherent (n + 1) ∧ ∀ (i : Nat) obj obj', s.objects[i]? = some obj →
    (s.step c).objects[i]? = some obj' →
      (obj'.payload ≠ obj.payload → obj.version < obj'.version) ∧
      (s.renews c = true → obj'.version ≠ obj.version → obj'.payload ≠ obj.payload) := by
  have htracks := step_tracks (h.not_strays hc)
  have hold : ∀ (i : Nat) obj obj', s.objects[i]? = some obj → (s.step c).objects[i]? = some obj' →
      obj'.Coherent s.sha256 ∧ (obj'.payload = obj.payload ∧ obj'.version = obj.version ∨
        obj'.version.toNat = obj.version.toNat + 1) := by
    intro i obj obj' ho ho'
    obtain ⟨hobj, hversion⟩ := h i obj ho
    obtain ⟨obj1, ho1, htouch⟩ := htracks.touches i obj ho
    cases ho'.symm.trans ho1
    obtain ⟨hobj', hchange⟩ := hobj.touch hc htouch
    refine ⟨hobj', hchange.imp_right fun heq => ?_⟩
    rw [heq]
    exact Nat.mod_eq_of_lt (by simp; omega)
  refine ⟨fun i obj' ho' => ?_, fun i obj obj' ho ho' => ⟨fun hne => ?_, fun hnew hne => ?_⟩⟩
  · rw [step_sha256]
    cases ho : s.objects[i]? with
    | none =>
      obtain ⟨params, hcall, rfl⟩ := htracks.created i obj' ho' ho
      rw [hcall] at hc
      exact ⟨⟨short_of_present hc, nofun, rfl⟩, Nat.le_add_left 1 n⟩
    | some obj =>
      obtain ⟨hobj', hchange⟩ := hold i obj obj' ho ho'
      have hversion := (h i obj ho).2
      refine ⟨hobj', ?_⟩
      rcases hchange with ⟨-, heq⟩ | heq
      · rw [heq]
        omega
      · omega
  · rcases (hold i obj obj' ho ho').2 with ⟨heq, -⟩ | heq
    · exact absurd heq hne
    · exact UInt64.lt_iff_toNat_lt.mpr (by omega)
  · exact (htracks.counts hnew i obj obj' ho ho').resolve_left hne

lemma coherent_after (sha256 : List UInt8 → Digest) (htame : ∀ c ∈ run, c.1.Tame)
    (hlen : run.length < 2 ^ 64) (hn : n ≤ run.length) :
    ((Store.boot sha256).after run n).Coherent n := by
  induction n with
  | zero => exact fun i obj ho => nomatch ho
  | succ n ih =>
    have hget : run[n]? = some run[n] := getElem?_eq_getElem hn
    rw [after_step hget]
    exact ((ih (Nat.le_of_succ_le hn)).step (htame _ (getElem_mem hn)) (by omega)).1

lemma sha256_after : ((Store.boot sha256).after run n).sha256 = sha256 :=
  Run.after_invariant Store.step (I := fun s => s.sha256 = sha256) rfl
    (fun s c => (step_sha256 s c).trans) n

end Run

/-- Where calls agree with their sizes and put other bytes in place than were there, an object has
its bytes and their hash, and its version counts up with each change of the payload and at no other
time. -/
theorem objects_coherent (sha256 : List UInt8 → Digest) (run : List (Call × Env))
    (htame : ∀ c ∈ run, c.1.Tame)
    (hrenews : ∀ n c, run[n]? = some c → ((Store.boot sha256).after run n).renews c = true)
    (hlen : run.length < 2 ^ 64) (n : Nat) (hn : n ≤ run.length) :
    (∀ (i : Nat) obj, ((Store.boot sha256).after run n).objects[i]? = some obj →
      0 < obj.payload.size →
      obj.payload.bytes.length = obj.payload.size.toNat ∧
      obj.contentHash = sha256 obj.payload.bytes) ∧
    ∀ c (i : Nat) obj obj', run[n]? = some c →
    ((Store.boot sha256).after run n).objects[i]? = some obj →
      ((Store.boot sha256).after run (n + 1)).objects[i]? = some obj' →
      (obj'.payload ≠ obj.payload → obj.version < obj'.version) ∧
      (obj'.version ≠ obj.version → obj'.payload ≠ obj.payload) := by
  have hpoint := coherent_after sha256 htame hlen hn
  constructor
  · intro i obj ho hpos
    obtain ⟨hobj, -⟩ := hpoint i obj ho
    rw [hobj.hash, sha256_after]
    exact hobj.live.size_pos hpos
  · intro c i obj obj' hc ho ho'
    rw [after_step hc] at ho'
    have hlt := (List.getElem?_eq_some_iff.mp hc).1
    have hstep := (hpoint.step (htame c (mem_of_getElem? hc)) (by omega)).2 i obj obj' ho ho'
    exact ⟨hstep.1, hstep.2 (hrenews n c hc)⟩

/-- A staged write that is committed leaves the object coherent. -/
theorem objects_coherent_staged :
    ((Store.boot id).after (stagedWrite (.trusted id) 2 (.ofList [3])) 5).objects.Forall fun obj =>
      0 < obj.payload.size →
      obj.payload.bytes.length = obj.payload.size.toNat ∧
      obj.contentHash = id obj.payload.bytes := by
  rw [forall_iff_forall_mem]
  have htame : ∀ c ∈ stagedWrite (.trusted id) 2 (.ofList [3]), c.1.Tame := by
    intro c hc
    simp only [stagedWrite, mem_cons, not_mem_nil, or_false] at hc
    rcases hc
      with rfl | rfl | rfl | rfl | rfl <;> simp [Call.Tame, twoBytes, Buffer.ofList, Payload.bytes]
  have hrenews : ∀ n c, (stagedWrite (.trusted id) 2 (.ofList [3]))[n]? = some c →
      ((Store.boot id).after (stagedWrite (.trusted id) 2 (.ofList [3])) n).renews c = true := by
    intro n c hc
    rcases n with _ | _ | _ | _ | _ | n <;> cases hc <;> decide +kernel
  intro obj hobj
  obtain ⟨i, hi⟩ := getElem?_of_mem hobj
  exact (objects_coherent id _ htame hrenews (by decide) 5 (by decide)).1 i obj hi

/-- A replacement without bytes keeps its size. -/
theorem replace_null_size :
    (((Store.boot id).after [(.create twoBytes, .trusted id),
      (.openAs ⟨1, 1⟩ .readwrite 0, .trusted id),
      (.replace 0 (.null 3), .trusted id)] 3).objects.map fun obj =>
      (obj.payload.size, obj.payload.bytes)) = [(3, [])] := by
  decide +kernel

end Anunix.Object
