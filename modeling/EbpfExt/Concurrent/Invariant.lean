import EbpfExt.Concurrent.System

/-!
# 着ける状態が満たすこと

`Inv` は着けるどの状態でも成り立つ（`Reach.inv`）。一つの step が `Inv` を保つことを event ごとに示し
（`Inv.attachBegin` など）、帰納法は一度だけ。

* `Accounted` — メモリの帳簿：割り当てていないところは空で、ブロックと work item の解放の回数は、
  解放済みなら 1、そうでなければ 0
* `RecordOk` — client の phase ごとの、record と work item と rundown の状態。rundown の参照の数は、
  それを持っている thread の数（`holders`）
* `Inv` — 上の二つと、リストの形、ghost の `attached` と phase の対応、work item の持ち主が一つであること
* `LinkInv` — 外された client の `Flink` の行き先と、thread が前に受け取った client。
  `ebpf_extension_hook_get_next_attached_client` の結果が一度つながった client であることは、これから出る
-/

namespace EbpfExt

/-! ## メモリの帳簿 -/

/-- 割り当てと解放の帳簿。 -/
structure Accounted (m : Memory) : Prop where
  pool_fresh : ∀ x, m.lastAddr < x → m.pool x = .unallocated
  pool_null : m.pool 0 = .unallocated
  workItems_fresh : ∀ w, m.lastWorkItem < w → m.workItems w = .unallocated
  workItems_null : m.workItems 0 = .unallocated
  poolFrees : ∀ x, m.poolFrees x = if (m.pool x).isFreed then 1 else 0
  workItemFrees : ∀ w, m.workItemFrees w = if m.workItems w = .freed then 1 else 0

namespace Accounted

variable {m : Memory} {a w : Nat}

theorem poolFrees_le (h : Accounted m) (x : Nat) : m.poolFrees x ≤ 1 := by
  rw [h.poolFrees x]; split <;> omega

theorem workItemFrees_le (h : Accounted m) (v : Nat) : m.workItemFrees v ≤ 1 := by
  rw [h.workItemFrees v]; split <;> omega

/-- 生きているブロックは `NULL` でなく、割り当てたアドレスにある。 -/
theorem live_addr (h : Accounted m) (ha : (m.pool a).isLive = true) : 0 < a ∧ a ≤ m.lastAddr := by
  refine ⟨Nat.pos_of_ne_zero fun h0 => ?_, Nat.le_of_not_lt fun hl => ?_⟩
  · subst h0; rw [h.pool_null] at ha; cases ha
  · rw [h.pool_fresh a hl] at ha; cases ha

/-- 使っている work item は `NULL` でなく、割り当てた番号にある。 -/
theorem workItem_addr (h : Accounted m) (hw : m.workItems w ≠ .unallocated) : 0 < w ∧ w ≤ m.lastWorkItem := by
  refine ⟨Nat.pos_of_ne_zero fun h0 => hw (h0 ▸ h.workItems_null), Nat.le_of_not_lt fun hl => hw ?_⟩
  exact h.workItems_fresh w hl

/-- ブロックと work item の表、回数、割り当ての位置が同じなら、帳簿も同じ（リストと lock だけを変える操作）。 -/
theorem of_eq {m' : Memory} (h : Accounted m) (hp : m'.pool = m.pool) (hw : m'.workItems = m.workItems)
    (hpf : m'.poolFrees = m.poolFrees) (hwf : m'.workItemFrees = m.workItemFrees)
    (hl : m'.lastAddr = m.lastAddr) (hlw : m'.lastWorkItem = m.lastWorkItem) : Accounted m' := by
  obtain ⟨h1, h2, h3, h4, h5, h6⟩ := h
  exact ⟨by rwa [hp, hl], by rwa [hp], by rwa [hw, hlw], by rwa [hw], by rwa [hpf, hp], by rwa [hwf, hw]⟩

theorem empty : Accounted Memory.empty := ⟨fun _ _ => rfl, rfl, fun _ _ => rfl, rfl, fun _ => rfl, fun _ => rfl⟩

theorem allocate (h : Accounted m) {r : Record} : Accounted (m.allocate r) where
  pool_fresh x hx := by
    simp only [Memory.allocate] at hx ⊢
    rw [Function.update_noteq (Nat.ne_of_gt hx)]
    exact h.pool_fresh x (by omega)
  pool_null := by
    simp only [Memory.allocate]
    rw [Function.update_noteq (Nat.succ_ne_zero _).symm, h.pool_null]
  workItems_fresh := h.workItems_fresh
  workItems_null := h.workItems_null
  poolFrees x := by
    simp only [Memory.allocate, h.poolFrees x, Function.update_apply]
    split_ifs with hx <;> simp_all [h.pool_fresh _ (Nat.lt_succ_self _), Block.isFreed]
  workItemFrees := h.workItemFrees

theorem withNewClient (h : Accounted m) {c : HookClient} : Accounted (m.withNewClient c) :=
  (h.allocate (r := .client c)).of_eq rfl rfl rfl rfl rfl rfl

theorem allocateWorkItem (h : Accounted m) : Accounted m.allocateWorkItem where
  pool_fresh := h.pool_fresh
  pool_null := h.pool_null
  workItems_fresh v hv := by
    simp only [Memory.allocateWorkItem_lastWorkItem] at hv
    simp only [Memory.allocateWorkItem_workItems, if_neg (Nat.ne_of_gt hv)]
    exact h.workItems_fresh v (by omega)
  workItems_null := by simp [h.workItems_null]
  poolFrees := h.poolFrees
  workItemFrees v := by
    simp only [Memory.allocateWorkItem_workItemFrees, Memory.allocateWorkItem_workItems, h.workItemFrees v]
    split_ifs with hv <;> simp_all [h.workItems_fresh _ (Nat.lt_succ_self _)]

theorem updateClient (h : Accounted m) {f : HookClient → HookClient} : Accounted (m.updateClient a f) where
  pool_fresh x hx := by
    rw [Memory.updateClient_pool]
    split_ifs with hxa
    · subst hxa; rw [h.pool_fresh x hx]; rfl
    · exact h.pool_fresh x hx
  pool_null := by
    rw [Memory.updateClient_pool]
    split_ifs with h0
    · subst h0; rw [h.pool_null]; rfl
    · exact h.pool_null
  workItems_fresh := h.workItems_fresh
  workItems_null := h.workItems_null
  poolFrees x := by
    rw [Memory.updateClient_poolFrees, Memory.updateClient_pool, h.poolFrees x]
    by_cases hxa : x = a
    · subst hxa; rw [if_pos rfl, Block.isFreed_mapClient]
    · rw [if_neg hxa]
  workItemFrees := h.workItemFrees

/-- 生きているブロックを一度解放する。 -/
theorem exFreePool (h : Accounted m) (ha : (m.pool a).isLive = true) : Accounted (EbpfExt.exFreePool a m) where
  pool_fresh x hx := by
    have := (h.live_addr ha).2
    rw [exFreePool_lastAddr] at hx
    rw [exFreePool_pool, if_neg (by omega)]
    exact h.pool_fresh x hx
  pool_null := by
    have := (h.live_addr ha).1
    rw [exFreePool_pool, if_neg (by omega)]
    exact h.pool_null
  workItems_fresh := h.workItems_fresh
  workItems_null := h.workItems_null
  poolFrees x := by
    rw [exFreePool_poolFrees, exFreePool_pool]
    by_cases hxa : x = a
    · subst hxa
      simp only [if_true, h.poolFrees x]
      rcases hp : m.pool x with _ | _ | _ <;> rw [hp] at ha <;> simp_all [Block.isLive, Block.free, Block.isFreed]
    · simp only [if_neg hxa, h.poolFrees x]
  workItemFrees := h.workItemFrees

/-- 使っている、まだ解放していない work item の状態を変える。 -/
theorem setWorkItem {m' : Memory} (h : Accounted m) (hw : m.workItems w ≠ .unallocated) (hnf : m.workItems w ≠ .freed)
    {st : WorkItemState} (hwi : ∀ v, m'.workItems v = if v = w then st else m.workItems v)
    (hwf : ∀ v, m'.workItemFrees v = if v = w ∧ st = .freed then m.workItemFrees w + 1 else m.workItemFrees v)
    (hp : m'.pool = m.pool) (hpf : m'.poolFrees = m.poolFrees) (hl : m'.lastAddr = m.lastAddr)
    (hlw : m'.lastWorkItem = m.lastWorkItem) : Accounted m' where
  pool_fresh := by rw [hp, hl]; exact h.pool_fresh
  pool_null := by rw [hp]; exact h.pool_null
  workItems_fresh v hv := by
    have := (h.workItem_addr hw).2
    rw [hwi, if_neg (by omega)]
    exact h.workItems_fresh v (by omega)
  workItems_null := by
    have := (h.workItem_addr hw).1
    rw [hwi, if_neg (by omega)]
    exact h.workItems_null
  poolFrees := by rw [hpf, hp]; exact h.poolFrees
  workItemFrees v := by
    rw [hwf, hwi]
    by_cases hv : v = w
    · subst hv
      by_cases hs : st = .freed
      · simp [hs, h.workItemFrees v, hnf]
      · simp [hs, h.workItemFrees v, hnf]
    · simp [hv, h.workItemFrees v]

theorem ioFreeWorkItem (h : Accounted m) (hw : m.workItems w ≠ .unallocated) (hnf : m.workItems w ≠ .freed) :
    Accounted (EbpfExt.ioFreeWorkItem w m) :=
  h.setWorkItem hw hnf (fun _ => ioFreeWorkItem_workItems) (fun v => by simp) rfl rfl rfl rfl

theorem ioQueueWorkItem (h : Accounted m) (hw : m.workItems w ≠ .unallocated) (hnf : m.workItems w ≠ .freed) :
    Accounted (EbpfExt.ioQueueWorkItem w m) :=
  h.setWorkItem hw hnf (fun _ => ioQueueWorkItem_workItems) (fun v => by simp) rfl rfl rfl rfl

theorem runWorkItem (h : Accounted m) (hw : m.workItems w ≠ .unallocated) (hnf : m.workItems w ≠ .freed) :
    Accounted (EbpfExt.runWorkItem w m) :=
  h.setWorkItem hw hnf (fun _ => runWorkItem_workItems) (fun v => by simp) rfl rfl rfl rfl

/-- `_ebpf_extension_hook_client_cleanup`：生きている record と、その使っている work item を一度ずつ解放する。 -/
theorem cleanup (h : Accounted m) (ha : (m.pool a).isLive = true)
    (hw : (m.clientAt a).detachWorkItem ≠ 0 →
      m.workItems (m.clientAt a).detachWorkItem ≠ .unallocated ∧ m.workItems (m.clientAt a).detachWorkItem ≠ .freed) :
    Accounted (ebpfExtensionHookClientCleanup a m) := by
  have ha0 : a ≠ 0 := (h.live_addr ha).1.ne'
  unfold ebpfExtensionHookClientCleanup
  simp only [ha0, if_false]
  split_ifs with hw0
  · exact (h.ioFreeWorkItem (hw hw0).1 (hw hw0).2).exFreePool ha
  · exact h.exFreePool ha

end Accounted

/-! ## client の record -/

/-- `x` の record の work item が `NULL` でなく、状態 `st` にある。 -/
def WorkItemIn (m : Memory) (x : Nat) (st : WorkItemState) : Prop :=
  (m.clientAt x).detachWorkItem ≠ 0 ∧ m.workItems (m.clientAt x).detachWorkItem = st

/-- `x` に client の record が生きている。 -/
def LiveClient (m : Memory) (x : Nat) : Prop := ∃ r, m.pool x = .live (.client r)

/--
phase ごとの、client `x` の record と work item と rundown。`h` は `x` の rundown の参照を持っている
thread の数で、rundown の参照の数はいつもそれに等しい。リストにつながる前と待ちが戻った後は、
誰も参照を持っていない。
-/
def RecordOk (m : Memory) (x h : Nat) : Phase → Prop
  | .none => h = 0
  | .attaching | .inserting =>
    LiveClient m x ∧ WorkItemIn m x .allocated ∧ (m.clientAt x).rundown = ⟨⟨h, false⟩, false⟩ ∧ h = 0
  | .attached => LiveClient m x ∧ WorkItemIn m x .allocated ∧ (m.clientAt x).rundown = ⟨⟨h, false⟩, false⟩
  | .detached => LiveClient m x ∧ WorkItemIn m x .queued ∧ (m.clientAt x).rundown = ⟨⟨h, false⟩, false⟩
  | .closing w =>
    LiveClient m x ∧ (m.clientAt x).detachWorkItem = w ∧ WorkItemIn m x .running ∧
      (m.clientAt x).rundown = ⟨⟨h, true⟩, false⟩
  | .completed =>
    LiveClient m x ∧ WorkItemIn m x .freed ∧ (m.clientAt x).rundown = ⟨⟨h, true⟩, true⟩ ∧ h = 0
  | .failed | .cleanedUp => (m.pool x).isFreed = true ∧ h = 0

theorem Memory.clientAt_congr {m m' : Memory} {x : Nat} (h : m'.pool x = m.pool x) :
    m'.clientAt x = m.clientAt x := by
  simp only [Memory.clientAt, h]

/-- `x` のブロックと、`x` の work item が変わらなければ、`x` の `RecordOk` は変わらない。 -/
theorem RecordOk.frame {m m' : Memory} {x h : Nat} {p : Phase} (hr : RecordOk m x h p)
    (hp : m'.pool x = m.pool x)
    (hw : m'.workItems (m.clientAt x).detachWorkItem = m.workItems (m.clientAt x).detachWorkItem) :
    RecordOk m' x h p := by
  have hc := Memory.clientAt_congr hp
  cases p <;> simp only [RecordOk, WorkItemIn, LiveClient, hc, hp, hw] at hr ⊢ <;> exact hr

/-! ## 参照を持っている thread -/

section Holders

variable {s : Sys} {t x : Nat} {pc pc' : InvokerPc}

theorem holders_set (ht : s.invokers[t]? = some pc) (x : Nat) :
    (s.invokers.set t pc').countP (·.holds x) =
      holders s x - (if pc.holds x then 1 else 0) + (if pc'.holds x then 1 else 0) := by
  obtain ⟨hlt, heq⟩ := List.getElem?_eq_some_iff.mp ht
  rw [List.countP_set _ _ _ _ hlt, heq]
  rfl

theorem holders_pos (ht : s.invokers[t]? = some pc) (hx : pc.holds x = true) : 0 < holders s x :=
  List.countP_pos_iff.mpr ⟨pc, List.getElem?_mem ht, hx⟩

end Holders

/-! ## 不変条件 -/

/-- 着けるどの状態でも成り立つこと。 -/
structure Inv (hd : Nat) (s : Sys) : Prop where
  accounted : Accounted s.mem
  clientList : ClientList s.mem hd s.attached
  attached_iff : ∀ x, x ∈ s.attached ↔ s.phase x = .attached
  phase_fresh : ∀ x, s.mem.lastAddr < x → s.phase x = .none
  phase_null : s.phase 0 = .none
  phase_hd : s.phase hd = .none
  record : ∀ x, RecordOk s.mem x (holders s x) (s.phase x)
  workItem_le : ∀ x, s.phase x ≠ .none → (s.mem.clientAt x).detachWorkItem ≤ s.mem.lastWorkItem
  workItem_inj : ∀ x y, s.phase x ≠ .none → s.phase y ≠ .none → (s.mem.clientAt x).detachWorkItem ≠ 0 →
    (s.mem.clientAt x).detachWorkItem = (s.mem.clientAt y).detachWorkItem → x = y
  found : ∀ t c : Nat, s.invokers[t]? = some (.found c) → (s.phase c).linked = true

/-- register した直後は `Inv`。 -/
theorem Inv.initial {hd : Nat} {allocOk : Bool} {nmrStatus st : NtStatus} {m : Memory} (n k : Nat)
    (hr : ebpfExtensionHookProviderRegister allocOk nmrStatus Memory.empty = (st, hd, m)) (hs : ntSuccess st = true) :
    Inv hd (Sys.initial m n k) := by
  have hl := (ebpfExtensionHookProviderRegister_clientList hr hs).2
  obtain ⟨rfl, rfl⟩ := ebpfExtensionHookProviderRegister_eq hr hs
  refine ⟨Accounted.empty.allocate.of_eq rfl rfl rfl rfl rfl rfl, hl, fun _ => ?_, fun _ _ => rfl, rfl, rfl,
    fun _ => ?_, fun _ h => absurd rfl h, fun _ _ h => absurd rfl h, fun t c h => ?_⟩
  · simp [Sys.initial]
  · simp [RecordOk, holders, Sys.initial, List.countP_replicate, InvokerPc.holds]
  · simp only [Sys.initial, List.getElem?_replicate] at h
    split at h <;> cases h

section Update

variable {hd : Nat} {s : Sys} {a : Nat} {m' : Memory} {p' : Phase} {L' : List Nat}

/-- phase のある client は、`NULL` でも provider でもなく、割り当てたアドレスにある。 -/
theorem Inv.addr (hi : Inv hd s) (hp : s.phase a ≠ .none) : a ≠ 0 ∧ a ≠ hd ∧ a ≤ s.mem.lastAddr :=
  ⟨fun h => hp (h ▸ hi.phase_null), fun h => hp (h ▸ hi.phase_hd),
    Nat.le_of_not_lt fun hl => hp (hi.phase_fresh a hl)⟩

/-- 二つの client の work item は、`NULL` でなければ違う。 -/
theorem Inv.workItem_ne (hi : Inv hd s) {x y : Nat} (hx : s.phase x ≠ .none) (hy : s.phase y ≠ .none) (hxy : x ≠ y)
    (h0 : (s.mem.clientAt x).detachWorkItem ≠ 0) :
    (s.mem.clientAt x).detachWorkItem ≠ (s.mem.clientAt y).detachWorkItem :=
  fun h => hxy (hi.workItem_inj x y hx hy h0 h)

/-- `a` の work item だけを変えるメモリでは、ほかの client の work item はそのまま。 -/
theorem Inv.workItems_other (hi : Inv hd s) (hpa : s.phase a ≠ .none) (h0 : (s.mem.clientAt a).detachWorkItem ≠ 0)
    (hwm : ∀ v, v ≠ (s.mem.clientAt a).detachWorkItem → m'.workItems v = s.mem.workItems v) :
    ∀ x, x ≠ a → s.phase x ≠ .none →
      m'.workItems (s.mem.clientAt x).detachWorkItem = s.mem.workItems (s.mem.clientAt x).detachWorkItem :=
  fun _ hxa hx => hwm _ fun h => hi.workItem_ne hpa hx (Ne.symm hxa) h0 h.symm

/-- リストにつながっていない client の phase を、つながっていない phase に変えても `attached` と合う。 -/
theorem Inv.attached_update (hi : Inv hd s) (hp : s.phase a ≠ .attached) (hp' : p' ≠ .attached) :
    ∀ x, x ∈ s.attached ↔ Function.update s.phase a p' x = .attached := by
  intro x
  rw [hi.attached_iff]
  by_cases hxa : x = a
  · subst hxa
    simp only [Function.update_same]
    exact ⟨fun h => absurd h hp, fun h => absurd h hp'⟩
  · rw [Function.update_noteq hxa]

/-- `a` を `none` でない phase に進めても、`a` でない、phase が `none` の所は `none` のまま。 -/
theorem update_eq_none {f : Nat → Phase} {x : Nat} (hx : f x = .none) (ha : p' ≠ .none → x ≠ a) :
    Function.update f a p' x = .none := by
  by_cases hxa : x = a
  · subst hxa
    rw [Function.update_same]
    by_contra hp
    exact ha hp rfl
  · rw [Function.update_noteq hxa, hx]

/--
client `a` の phase を `p'` に、メモリを `m'` に、`attached` を `L'` にする step（thread は動かない）。
`a` 以外のブロックと、`a` 以外の client の work item が変わらなければ、確かめるのは `a` のことだけ。
-/
theorem Inv.update (hi : Inv hd s) (hacc : Accounted m') (hl : ClientList m' hd L')
    (hL : ∀ x, x ∈ L' ↔ Function.update s.phase a p' x = .attached)
    (hlast : s.mem.lastAddr ≤ m'.lastAddr) (hlastW : s.mem.lastWorkItem ≤ m'.lastWorkItem)
    (ha : p' ≠ .none → a ≠ 0 ∧ a ≠ hd ∧ a ≤ m'.lastAddr)
    (hrec : RecordOk m' a (holders s a) p')
    (hpool : ∀ x, x ≠ a → m'.pool x = s.mem.pool x)
    (hwi : ∀ x, x ≠ a → s.phase x ≠ .none →
      m'.workItems (s.mem.clientAt x).detachWorkItem = s.mem.workItems (s.mem.clientAt x).detachWorkItem)
    (hwle : p' ≠ .none → (m'.clientAt a).detachWorkItem ≤ m'.lastWorkItem)
    (hwinj : p' ≠ .none → ∀ y, y ≠ a → s.phase y ≠ .none → (m'.clientAt a).detachWorkItem ≠ 0 →
      (m'.clientAt a).detachWorkItem ≠ (s.mem.clientAt y).detachWorkItem)
    (hfound : ∀ t : Nat, s.invokers[t]? = some (.found a) → p'.linked = true) :
    Inv hd { s with mem := m', phase := Function.update s.phase a p', attached := L' } := by
  have hphase : ∀ x, x ≠ a → Function.update s.phase a p' x = s.phase x :=
    fun x hx => Function.update_noteq hx _ _
  have hclient : ∀ x, x ≠ a → m'.clientAt x = s.mem.clientAt x :=
    fun x hx => Memory.clientAt_congr (hpool x hx)
  refine ⟨hacc, hl, hL, fun x hx => ?_, ?_, ?_, fun x => ?_, fun x hx => ?_, fun x y hx hy h0 hxy => ?_,
    fun t c ht => ?_⟩ <;> dsimp only at *
  · exact update_eq_none (hi.phase_fresh x (by omega)) fun hp hxa => by have := (ha hp).2.2; omega
  · exact update_eq_none hi.phase_null fun hp h0 => (ha hp).1 h0.symm
  · exact update_eq_none hi.phase_hd fun hp hh => (ha hp).2.1 hh.symm
  · by_cases hxa : x = a
    · subst hxa
      rw [Function.update_same]
      exact hrec
    · show RecordOk m' x (holders s x) _
      rw [hphase x hxa]
      by_cases hpx : s.phase x = .none
      · have := hi.record x
        rw [hpx] at this ⊢
        exact this
      · exact (hi.record x).frame (hpool x hxa) (hwi x hxa hpx)
  · by_cases hxa : x = a
    · subst hxa
      rw [Function.update_same] at hx
      exact hwle hx
    · rw [hphase x hxa] at hx
      rw [hclient x hxa]
      exact (hi.workItem_le x hx).trans hlastW
  · by_cases hxa : x = a <;> by_cases hya : y = a
    · exact hxa.trans hya.symm
    · subst hxa
      rw [Function.update_same] at hx
      rw [hphase y hya] at hy
      rw [hclient y hya] at hxy
      exact absurd hxy (hwinj hx y hya hy h0)
    · subst hya
      rw [Function.update_same] at hy
      rw [hphase x hxa] at hx
      rw [hclient x hxa] at hxy h0
      exact absurd hxy.symm (hwinj hy x hxa hx (hxy ▸ h0))
    · rw [hphase x hxa] at hx
      rw [hphase y hya] at hy
      rw [hclient x hxa, hclient y hya] at hxy
      rw [hclient x hxa] at h0
      exact hi.workItem_inj x y hx hy h0 hxy
  · by_cases hca : c = a
    · subst hca
      rw [Function.update_same]
      exact hfound t ht
    · rw [hphase c hca]
      exact hi.found t c ht

/--
前からある client `a` の phase を進める step。`a` の work item は同じで、一度リストにつながったなら
新しい phase もそう。
-/
theorem Inv.advance (hi : Inv hd s) (hpa : s.phase a ≠ .none) (hacc : Accounted m')
    (hl : ClientList m' hd L') (hL : ∀ x, x ∈ L' ↔ Function.update s.phase a p' x = .attached)
    (hlast : s.mem.lastAddr ≤ m'.lastAddr) (hlastW : s.mem.lastWorkItem ≤ m'.lastWorkItem)
    (hrec : RecordOk m' a (holders s a) p')
    (hpool : ∀ x, x ≠ a → m'.pool x = s.mem.pool x)
    (hwa : (m'.clientAt a).detachWorkItem = (s.mem.clientAt a).detachWorkItem)
    (hwi : ∀ x, x ≠ a → s.phase x ≠ .none →
      m'.workItems (s.mem.clientAt x).detachWorkItem = s.mem.workItems (s.mem.clientAt x).detachWorkItem)
    (hlinked : (s.phase a).linked = true → p'.linked = true) :
    Inv hd { s with mem := m', phase := Function.update s.phase a p', attached := L' } :=
  have ⟨ha0, hahd, hal⟩ := hi.addr hpa
  hi.update hacc hl hL hlast hlastW (fun _ => ⟨ha0, hahd, hal.trans hlast⟩) hrec hpool hwi
    (fun _ => hwa ▸ (hi.workItem_le a hpa).trans hlastW)
    (fun _ _ hya hy h0 => hwa ▸ hi.workItem_ne hpa hy (Ne.symm hya) (hwa ▸ h0))
    (fun t ht => hlinked (hi.found t a ht))

/-- リストの先頭は、空なら `NULL`、そうでなければリストにある client。 -/
theorem Inv.headD_linked (hi : Inv hd s) : s.attached.headD 0 = 0 ∨ (s.phase (s.attached.headD 0)).linked = true := by
  cases hL : s.attached with
  | nil => exact .inl rfl
  | cons x l =>
    have hx : x ∈ s.attached := by rw [hL]; exact List.mem_cons_self x l
    exact .inr (by rw [List.headD_cons, (hi.attached_iff x).mp hx]; rfl)

end Update

/-! ## 外された client の `Flink` -/

/-- `x` の `Flink` は、head か、一度はリストにつながった client を指す。 -/
def FlinkLinked (hd : Nat) (s : Sys) (x : Nat) : Prop :=
  (s.mem.links x).flink = hd ∨ (s.phase (s.mem.links x).flink).linked = true

/-- 着けるどの状態でも成り立つ、リストの外のこと。 -/
structure LinkInv (hd : Nat) (s : Sys) : Prop where
  /-- 外された client の `LIST_ENTRY` は、外されたときのまま。 -/
  unlinked : ∀ x, (s.phase x).linked = true → s.phase x ≠ .attached → FlinkLinked hd s x
  /-- たどる thread のいる client は、一度はリストにつながった。 -/
  cursor : ∀ t c : Nat, s.iterators[t]? = some (.cursor c) → (s.phase c).linked = true
  /-- hook を呼ぶ thread が済ませた client は、一度はリストにつながった。 -/
  passed : ∀ t c : Nat, s.invokers[t]? = some (.passed c) → (s.phase c).linked = true

section Link

variable {hd : Nat} {s : Sys} (hli : LinkInv hd s) (hi : Inv hd s)
include hli hi

/-- リストにある client の `Flink` はリストの次を指すので、一度つながった client はどれも `FlinkLinked`。 -/
theorem LinkInv.flinkLinked {x : Nat} (hx : (s.phase x).linked = true) : FlinkLinked hd s x := by
  by_cases ha : s.phase x = .attached
  · rcases List.mem_cons.mp (hi.clientList.1.links_mem
      (List.mem_cons_of_mem hd ((hi.attached_iff x).mpr ha))).1 with h | h
    · exact .inl h
    · exact .inr (by rw [(hi.attached_iff _).mp h]; rfl)
  · exact hli.unlinked x hx ha

/-- `NULL` か一度つながった client から始めると、次の client は `NULL` か一度つながった client。 -/
theorem LinkInv.getNext_linked {c : Nat} (hc : c = 0 ∨ (s.phase c).linked = true) :
    (ebpfExtensionHookGetNextAttachedClient hd c s.mem).1 = 0 ∨
      (s.phase (ebpfExtensionHookGetNextAttachedClient hd c s.mem).1).linked = true := by
  rcases hc with rfl | hc
  · rw [ebpfExtensionHookGetNextAttachedClient_null, ebpfExtensionHookGetAttachedClient_listRep hi.clientList.1]
    exact hi.headD_linked
  · have hc0 : c ≠ 0 := fun h => by rw [h, hi.phase_null] at hc; cases hc
    rw [ebpfExtensionHookGetNextAttachedClient_of_ne hc0]
    dsimp only
    split_ifs with hf
    · exact .inr ((hli.flinkLinked hi hc).resolve_left hf)
    · exact .inl rfl

end Link

end EbpfExt
