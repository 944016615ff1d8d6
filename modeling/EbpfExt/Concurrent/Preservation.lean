import EbpfExt.Concurrent.Invariant
import EbpfExt.Concurrent.Steps

/-!
# 一つの step は `Inv` を保つ

event ごとに一つの補題。binding の操作は `Inv.update` か `Inv.advance` に、hook を呼ぶ thread の操作は
`Inv.setInvoker` に帰着させ、その event が触る一つの client のことだけを確かめる。

* `Inv.step` — どの event の step も `Inv` を保つ。`ebpf_extension_hook_get_next_attached_client` で次の client
  を探す step だけは、前の client の `Flink` の行き先を `LinkInv` から読む
-/

namespace EbpfExt

variable {cb : AttachCallback} {hd : Nat} {s s' : Sys}

/-! ## binding の操作 -/

/-- 新しい record を作って、work item の前に失敗した attach（`NULL` の dispatch table か work item の失敗）。 -/
theorem Inv.newFailed (hi : Inv hd s) {c : HookClient} (hc : c.detachWorkItem = 0) :
    Inv hd { s with mem := ebpfExtensionHookClientCleanup (s.mem.lastAddr + 1) (s.mem.withNewClient c),
                    phase := Function.update s.phase (s.mem.lastAddr + 1) .failed } := by
  have hfresh := hi.phase_fresh _ (Nat.lt_succ_self s.mem.lastAddr)
  have hlive : ((s.mem.withNewClient c).pool (s.mem.lastAddr + 1)).isLive = true := by simp [Block.isLive]
  have hhd := (hi.clientList.2 hd (List.mem_cons_self _ _)).2
  have hrec := hi.record (s.mem.lastAddr + 1)
  rw [hfresh] at hrec
  rw [ebpfExtensionHookClientCleanup_eq_of_zero (Nat.succ_ne_zero _) (by simp [hc])]
  refine hi.update (hi.accounted.withNewClient.exFreePool hlive)
    (hi.clientList.frame (fun x hx => by simp [hx]) (by simp))
    (hi.attached_update (by rw [hfresh]; decide) (by decide)) (by simp) (by simp)
    (fun _ => ⟨Nat.succ_ne_zero _, by omega, by simp⟩) ⟨exFreePool_pool_self_isFreed hlive, hrec⟩
    (fun x hx => by simp [hx, Memory.withNewClient_pool_ne hx]) (fun _ _ _ => rfl)
    (fun _ => by simp [hc]) (fun _ _ _ _ h0 => absurd (by simp [hc]) h0)
    (fun t ht => absurd (hi.found t _ ht) (by rw [hfresh]; decide))

/-- 新しい record と work item を作り、`attach_callback` の前まで来た attach。 -/
theorem Inv.newAttaching (hi : Inv hd s) {c : HookClient} (hc : c.detachWorkItem = s.mem.lastWorkItem + 1)
    (hr : c.rundown = ⟨⟨0, false⟩, false⟩) :
    Inv hd { s with mem := (s.mem.withNewClient c).allocateWorkItem,
                    phase := Function.update s.phase (s.mem.lastAddr + 1) .attaching } := by
  have hfresh := hi.phase_fresh _ (Nat.lt_succ_self s.mem.lastAddr)
  have hhd := (hi.clientList.2 hd (List.mem_cons_self _ _)).2
  have hrec : holders s (s.mem.lastAddr + 1) = 0 := by
    have := hi.record (s.mem.lastAddr + 1)
    rwa [hfresh] at this
  refine hi.update hi.accounted.withNewClient.allocateWorkItem hi.clientList.callbackMemory
    (hi.attached_update (by rw [hfresh]; decide) (by decide)) (by simp) (by simp)
    (fun _ => ⟨Nat.succ_ne_zero _, by omega, by simp⟩)
    ⟨⟨c, by simp⟩, ⟨by simp [hc], by simp [hc]⟩, by simp [hr, hrec], hrec⟩
    (fun x hx => by simp [Memory.withNewClient_pool_ne hx]) (fun x _ hx => ?_)
    (fun _ => by simp [hc]) (fun _ y _ hy _ => ?_)
    (fun t ht => absurd (hi.found t _ ht) (by rw [hfresh]; decide))
  · have := hi.workItem_le x hx
    simp only [Memory.allocateWorkItem_workItems, Memory.withNewClient_lastWorkItem]
    rw [if_neg (by omega)]
    rfl
  · have := hi.workItem_le y hy
    simp only [Memory.clientAt_allocateWorkItem, Memory.clientAt_withNewClient, hc]
    omega

/-- attach の `attach_callback` の前まで。 -/
theorem Inv.attachBegin {env : AttachEnv} {args : AttachClientArgs} (hi : Inv hd s)
    (h : step cb hd s (.attachBegin env args) = .next s') : Inv hd s' := by
  rcases step_attachBegin h with rfl | ⟨c, hc, rfl⟩ | ⟨c, hc, hr, rfl⟩
  · exact hi
  · exact hi.newFailed hc
  · exact hi.newAttaching hc hr

/-- `attach_callback`。認めれば phase が進み、断れば record と work item を解放する。 -/
theorem Inv.attachCallback {a : Nat} (hi : Inv hd s) (h : step cb hd s (.attachCallback a) = .next s') :
    Inv hd s' := by
  obtain ⟨hp, hs'⟩ := step_attachCallback h
  have hpa : s.phase a ≠ .none := by rw [hp]; decide
  have hr := hi.record a
  rw [hp] at hr
  rcases hs' with ⟨-, rfl⟩ | rfl
  · exact hi.advance hpa hi.accounted hi.clientList (hi.attached_update (by rw [hp]; decide) (by decide))
      le_rfl le_rfl hr (fun _ _ => rfl) rfl (fun _ _ _ => rfl) (by rw [hp]; decide)
  · obtain ⟨⟨r, hlive⟩, ⟨hw0, hwa⟩, -, hh⟩ := hr
    have hlive' : (s.mem.pool a).isLive = true := by rw [hlive]; rfl
    rw [ebpfExtensionHookClientCleanup_eq (hi.addr hpa).1 hw0]
    exact hi.advance hpa ((hi.accounted.ioFreeWorkItem (by rw [hwa]; decide) (by rw [hwa]; decide)).exFreePool
      hlive') (hi.clientList.frame (fun _ _ => rfl) le_rfl) (hi.attached_update (by rw [hp]; decide) (by decide))
      le_rfl le_rfl ⟨exFreePool_pool_self_isFreed hlive', hh⟩ (fun x hx => by simp [hx]) (by simp)
      (hi.workItems_other hpa hw0 fun v hv => by simp [hv]) (by rw [hp]; decide)

/-- `attach_callback` を通った client は、`NULL` でなく、割り当てたアドレスにあって、まだリストにない。 -/
theorem Inv.inserting_not_mem {a : Nat} (hi : Inv hd s) (hp : s.phase a = .inserting) :
    a ∉ hd :: s.attached ∧ 0 < a ∧ a ≤ s.mem.lastAddr := by
  obtain ⟨ha0, hahd, hal⟩ := hi.addr (by rw [hp]; decide)
  refine ⟨?_, Nat.pos_of_ne_zero ha0, hal⟩
  rw [List.mem_cons, not_or, hi.attached_iff, hp]
  exact ⟨hahd, by decide⟩

/-- `InsertTailList`：`attach_callback` を通った client をリストの最後につなぐ。 -/
theorem Inv.attachInsert {a : Nat} (hi : Inv hd s) (h : step cb hd s (.attachInsert a) = .next s') :
    Inv hd s' := by
  obtain ⟨hp, M, hins, rfl⟩ := step_attachInsert h
  have hpa : s.phase a ≠ .none := by rw [hp]; decide
  obtain ⟨hnot, ha0, hal⟩ := hi.inserting_not_mem hp
  obtain ⟨M', hins', hl, hpool, hlast, hwi, hpf, hwf, hlw⟩ := attachClientInsert_clientList hi.clientList hnot ha0 hal
  obtain rfl : M = M' := Option.some.inj (hins.symm.trans hins')
  have hr := (hi.record a).frame (by rw [hpool]) (by rw [hwi])
  rw [hp] at hr
  refine hi.advance hpa (hi.accounted.of_eq hpool hwi hpf hwf hlast hlw) hl (fun x => ?_) hlast.ge hlw.ge
    ⟨hr.1, hr.2.1, hr.2.2.1⟩ (fun _ _ => by rw [hpool]) (by simp only [Memory.clientAt, hpool])
    (fun _ _ _ => by rw [hwi]) (fun _ => rfl)
  by_cases hxa : x = a
  · subst hxa
    simp
  · rw [Function.update_noteq hxa, ← hi.attached_iff]
    simp [hxa]

/--
リストにある client の detach：`STATUS_PENDING` を返し、その client だけをリストから外して work item を
queue する。書き換える `LIST_ENTRY` は前後の entry のものだけ。
-/
theorem Inv.detachClient {c : Nat} (hi : Inv hd s) (hp : s.phase c = .attached) :
    ∃ links, ebpfExtensionHookProviderDetachClient c s.mem = some (statusPending,
        ioQueueWorkItem (s.mem.clientAt c).detachWorkItem
          { s.mem with links, lock := exReleaseSpinLockExclusive (exAcquireSpinLockExclusive s.mem.lock) }) ∧
      ClientList { s.mem with links } hd (s.attached.erase c) ∧ links c = s.mem.links c ∧
      ∀ x, x ≠ (s.mem.links c).blink → x ≠ (s.mem.links c).flink → links x = s.mem.links x := by
  have hr := hi.record c
  rw [hp] at hr
  obtain ⟨⟨r, hlive⟩, -⟩ := hr
  rw [Memory.clientAt_of_live hlive]
  exact ebpfExtensionHookProviderDetachClient_clientList hi.clientList ((hi.attached_iff c).mpr hp)
    (by simp [Memory.readClient, hlive])

theorem Inv.detachClient_pending {c : Nat} (hi : Inv hd s) (hp : s.phase c = .attached) :
    ∃ m, ebpfExtensionHookProviderDetachClient c s.mem = some (statusPending, m) :=
  have ⟨_, hdet, _⟩ := hi.detachClient hp
  ⟨_, hdet⟩

/-- detach：client をリストから外し、work item を queue する。 -/
theorem Inv.detach {c : Nat} (hi : Inv hd s) (h : step cb hd s (.detach c) = .next s') : Inv hd s' := by
  obtain ⟨hp, st, m, hdet, rfl⟩ := step_detach h
  obtain ⟨links, hdet', hl, -⟩ := hi.detachClient hp
  simp only [hdet', Option.some.injEq, Prod.mk.injEq] at hdet
  obtain ⟨-, rfl⟩ := hdet
  have hpa : s.phase c ≠ .none := by rw [hp]; decide
  have hr := hi.record c
  rw [hp] at hr
  obtain ⟨hlive, ⟨hw0, hwa⟩, hrd⟩ := hr
  have hnd : s.attached.Nodup := (List.nodup_cons.mp hi.clientList.1.1).2
  have hacc : Accounted { s.mem with links, lock := exReleaseSpinLockExclusive (exAcquireSpinLockExclusive s.mem.lock) } :=
    hi.accounted.of_eq rfl rfl rfl rfl rfl rfl
  have hu : s.mem.workItems (s.mem.clientAt c).detachWorkItem ≠ .unallocated := by rw [hwa]; decide
  have hf : s.mem.workItems (s.mem.clientAt c).detachWorkItem ≠ .freed := by rw [hwa]; decide
  refine hi.advance hpa (hacc.ioQueueWorkItem hu hf) (hl.frame (fun _ _ => rfl) le_rfl)
    (fun x => ?_) le_rfl le_rfl ⟨hlive, ⟨hw0, if_pos rfl⟩, hrd⟩ (fun _ _ => rfl) rfl
    (hi.workItems_other hpa hw0 fun v hv => by simp [hv]) (fun _ => rfl)
  by_cases hxc : x = c
  · subst hxc
    simp [hnd.not_mem_erase]
  · rw [List.mem_erase_of_ne hxc, Function.update_noteq hxc, hi.attached_iff]

/-- 完了の work item が走り出し、rundown を閉じる（`ExWaitForRundownProtectionRelease` の入口）。 -/
theorem Inv.completionBegin {c : Nat} (hi : Inv hd s) (h : step cb hd s (.completionBegin c) = .next s') :
    Inv hd s' := by
  obtain ⟨hp, rfl⟩ := step_completionBegin h
  have hpa : s.phase c ≠ .none := by rw [hp]; decide
  have hr := hi.record c
  rw [hp] at hr
  obtain ⟨⟨r, hlive⟩, ⟨hw0, hwq⟩, hrd⟩ := hr
  have hr' := Memory.clientAt_of_live hlive
  rw [hr'] at hw0 hwq hrd ⊢
  unfold waitForRundownBegin
  have hlive' : ((runWorkItem r.detachWorkItem s.mem).updateClient c fun c =>
      { c with rundown := { c.rundown with protection := { c.rundown.protection with active := true } } }).pool c =
      .live (.client { r with rundown := { r.rundown with protection := { r.rundown.protection with active := true } } }) :=
    Memory.updateClient_pool_live hlive
  have hc' := Memory.clientAt_of_live hlive'
  refine hi.advance hpa ((hi.accounted.runWorkItem (by rw [hwq]; decide) (by rw [hwq]; decide)).updateClient)
    (hi.clientList.frame (fun _ _ => rfl) le_rfl) (hi.attached_update (by rw [hp]; decide) (by simp))
    le_rfl le_rfl ⟨⟨_, hlive'⟩, by simp only [hc'], ⟨by simpa only [hc'], by simp [hc']⟩,
      by simp [hc', hrd]⟩ (fun x hx => by simp [Memory.updateClient_pool, hx])
    (by simp only [hc', hr']) (hi.workItems_other hpa (hr' ▸ hw0) fun v hv => ?_) (fun _ => rfl)
  rw [hr'] at hv
  simp [hv]

/-- 完了の work item の待ちが戻る。 -/
theorem Inv.completionEnd {c : Nat} (hi : Inv hd s) (h : step cb hd s (.completionEnd c) = .next s') :
    Inv hd s' := by
  obtain ⟨w, hp, hcount, rfl⟩ := step_completionEnd h
  have hpa : s.phase c ≠ .none := by rw [hp]; simp
  have hr := hi.record c
  rw [hp] at hr
  obtain ⟨⟨r, hlive⟩, rfl, ⟨hw0, hwr⟩, hrd⟩ := hr
  have hh : holders s c = 0 := by rw [hrd] at hcount; exact hcount
  have hr' := Memory.clientAt_of_live hlive
  rw [hr'] at hw0 hwr hrd ⊢
  have hlive' : (s.mem.updateClient c fun c => { c with rundown := { c.rundown with rundownOccurred := true } }).pool c =
      .live (.client { r with rundown := { r.rundown with rundownOccurred := true } }) :=
    Memory.updateClient_pool_live hlive
  have hc' := Memory.clientAt_of_live hlive'
  refine hi.advance hpa (hi.accounted.updateClient.ioFreeWorkItem (by simp [hwr]) (by simp [hwr]))
    (hi.clientList.frame (fun _ _ => rfl) le_rfl) (hi.attached_update (by rw [hp]; simp) (by decide))
    le_rfl le_rfl ⟨⟨_, hlive'⟩, ⟨by simpa only [Memory.clientAt_ioFreeWorkItem, hc'], by simp [hc']⟩,
      by simp [hc', hrd, hh], hh⟩ (fun x hx => by simp [Memory.updateClient_pool, hx])
    (by simp only [Memory.clientAt_ioFreeWorkItem, hc', hr']) (hi.workItems_other hpa (hr' ▸ hw0) fun v hv => ?_)
    (fun _ => rfl)
  rw [hr'] at hv
  simp [hv]

/-- binding context の後片付け：`NmrProviderDetachClientComplete` の後で、record を解放する。 -/
theorem Inv.cleanup {c : Nat} (hi : Inv hd s) (h : step cb hd s (.cleanup c) = .next s') : Inv hd s' := by
  obtain ⟨hp, rfl⟩ := step_cleanup h
  have hpa : s.phase c ≠ .none := by rw [hp]; decide
  have hr := hi.record c
  rw [hp] at hr
  obtain ⟨⟨r, hlive⟩, -, -, hh⟩ := hr
  have hlive' : (s.mem.pool c).isLive = true := by rw [hlive]; rfl
  rw [show ebpfExtensionHookProviderCleanupBindingContext c s.mem = exFreePool c s.mem by
    simp [ebpfExtensionHookProviderCleanupBindingContext, (hi.addr hpa).1]]
  exact hi.advance hpa (hi.accounted.exFreePool hlive') (hi.clientList.frame (fun _ _ => rfl) le_rfl)
    (hi.attached_update (by rw [hp]; decide) (by decide)) le_rfl le_rfl
    ⟨exFreePool_pool_self_isFreed hlive', hh⟩ (fun x hx => by simp [hx]) (by simp) (fun _ _ _ => rfl)
    (fun _ => rfl)

/-! ## hook を呼ぶ thread -/

@[simp] theorem InvokerPc.holds_idle {x : Nat} : InvokerPc.idle.holds x = false := rfl
@[simp] theorem InvokerPc.holds_found {c x : Nat} : (InvokerPc.found c).holds x = false := rfl
@[simp] theorem InvokerPc.holds_entered {c x : Nat} : (InvokerPc.entered c).holds x = (c == x) := rfl
@[simp] theorem InvokerPc.holds_invoked {c x : Nat} : (InvokerPc.invoked c).holds x = (c == x) := rfl
@[simp] theorem InvokerPc.holds_passed {c x : Nat} : (InvokerPc.passed c).holds x = false := rfl

/-- hook を呼ぶ thread `t` を `pc` から `pc'` に進め、メモリを `m'` にする step。phase と `attached` は変わらない。 -/
theorem Inv.setInvoker {t : Nat} {pc pc' : InvokerPc} {m' : Memory} (hi : Inv hd s) (ht : s.invokers[t]? = some pc)
    (hacc : Accounted m') (hl : ClientList m' hd s.attached) (hlast : m'.lastAddr = s.mem.lastAddr)
    (hlw : m'.lastWorkItem = s.mem.lastWorkItem)
    (hrec : ∀ x, RecordOk m' x (holders s x - (if pc.holds x then 1 else 0) + (if pc'.holds x then 1 else 0))
      (s.phase x))
    (hwc : ∀ x, (m'.clientAt x).detachWorkItem = (s.mem.clientAt x).detachWorkItem)
    (hfound : ∀ c, pc' = .found c → (s.phase c).linked = true) :
    Inv hd { s with mem := m', invokers := s.invokers.set t pc' } := by
  refine ⟨hacc, hl, hi.attached_iff, fun x hx => hi.phase_fresh x (hlast ▸ hx), hi.phase_null, hi.phase_hd,
    fun x => ?_, fun x hx => ?_, fun x y hx hy h0 hxy => ?_, fun u c hu => ?_⟩ <;> dsimp only at *
  · show RecordOk m' x ((s.invokers.set t pc').countP (·.holds x)) (s.phase x)
    rw [holders_set ht]
    exact hrec x
  · rw [hwc, hlw]
    exact hi.workItem_le x hx
  · rw [hwc, hwc] at hxy
    rw [hwc] at h0
    exact hi.workItem_inj x y hx hy h0 hxy
  · rw [List.getElem?_set] at hu
    split_ifs at hu with htu hlt
    · exact hfound c (Option.some.inj hu)
    · exact hi.found u c hu

/--
thread `t` が client `c` の record（`f` は work item を変えない）だけを書き換えて `pc` から `pc'` に進む
step。`t` が参照を持ちうるのは、前も後も `c` だけ。
-/
theorem Inv.touchClient {t c : Nat} {pc pc' : InvokerPc} {f : HookClient → HookClient} (hi : Inv hd s)
    (ht : s.invokers[t]? = some pc) (hpc : ∀ x, x ≠ c → pc.holds x = false ∧ pc'.holds x = false)
    (hf : ∀ r, (f r).detachWorkItem = r.detachWorkItem)
    (hrec : RecordOk (s.mem.updateClient c f) c
      (holders s c - (if pc.holds c then 1 else 0) + (if pc'.holds c then 1 else 0)) (s.phase c))
    (hfound : ∀ c', pc' = .found c' → (s.phase c').linked = true) :
    Inv hd { s with mem := s.mem.updateClient c f, invokers := s.invokers.set t pc' } := by
  refine hi.setInvoker ht hi.accounted.updateClient (hi.clientList.frame (fun _ _ => rfl) le_rfl) rfl rfl
    (fun x => ?_) (fun x => ?_) hfound
  · by_cases hxc : x = c
    · subst hxc
      exact hrec
    · simp only [(hpc x hxc).1, (hpc x hxc).2, Bool.false_eq_true, if_false, Nat.sub_zero, Nat.add_zero]
      exact (hi.record x).frame (by simp [Memory.updateClient_pool, hxc]) rfl
  · rw [Memory.clientAt_updateClient]
    split_ifs with h
    · rw [hf, h.1]
    · rfl

/-- 参照を持たない thread `t` が、`NULL` か一度つながった client `c` を見つける。メモリは変わらない。 -/
theorem Inv.setFound {t c : Nat} {pc : InvokerPc} (hi : Inv hd s) (ht : s.invokers[t]? = some pc)
    (hpc : ∀ x, pc.holds x = false) (hc : c = 0 ∨ (s.phase c).linked = true) :
    Inv hd { s with invokers := s.invokers.set t (if c = 0 then .idle else .found c) } := by
  have hpc' : ∀ x, (if c = 0 then InvokerPc.idle else .found c).holds x = false := fun x => by split <;> rfl
  refine hi.setInvoker ht hi.accounted hi.clientList rfl rfl (fun x => ?_) (fun _ => rfl) (fun c' hc' => ?_)
  · simpa only [hpc, hpc', Bool.false_eq_true, if_false, Nat.sub_zero, Nat.add_zero] using hi.record x
  · split_ifs at hc' with h0
    obtain rfl := InvokerPc.found.inj hc'
    exact hc.resolve_left h0

/-- 探索（`ebpf_extension_hook_get_attached_client`）：リストの先頭の client を見つける。 -/
theorem Inv.lookup {t : Nat} (hi : Inv hd s) (h : step cb hd s (.lookup t) = .next s') : Inv hd s' := by
  obtain ⟨ht, rfl⟩ := step_lookup h
  simp only [ebpfExtensionHookGetAttachedClient_listRep hi.clientList.1]
  rcases ht with ht | ⟨c, ht⟩ <;> exact hi.setFound ht (fun _ => rfl) hi.headD_linked

/-- 全部の client を呼ぶ hook の探索：`NULL` か、済ませた client から次を読む。 -/
theorem Inv.lookupNext {t : Nat} (hi : Inv hd s) (hli : LinkInv hd s) (h : step cb hd s (.lookupNext t) = .next s') :
    Inv hd s' := by
  obtain ⟨c, ⟨ht, rfl⟩ | ht, rfl⟩ := step_lookupNext h
  · exact hi.setFound ht (fun _ => rfl) (hli.getNext_linked hi (.inl rfl))
  · exact hi.setFound ht (fun _ => rfl) (hli.getNext_linked hi (.inr (hli.passed t c ht)))

/-! ### rundown の参照の数 -/

section Count

variable {m : Memory} {x h h' : Nat} {p : Phase}

/-- 一度リストにつながった client は、ブロックが生きていれば、client の record が生きている。 -/
theorem RecordOk.liveClient (hr : RecordOk m x h p) (hl : p.linked = true) (hlive : (m.pool x).isLive = true) :
    LiveClient m x := by
  cases p with
  | attached | detached | closing _ | completed => exact hr.1
  | cleanedUp => simp [Block.isLive_eq_false_of_isFreed hr.1] at hlive
  | none | attaching | inserting | failed => cases hl

/-- 一度リストにつながった client のブロックが生きているのは、binding context の後片付けの前だけ。 -/
theorem RecordOk.isLive_iff (hr : RecordOk m x h p) (hl : p.linked = true) :
    (m.pool x).isLive = true ↔ p ≠ .cleanedUp := by
  cases p with
  | attached | detached | closing _ | completed => obtain ⟨r, hr⟩ := hr.1; simp [hr, Block.isLive]
  | cleanedUp => simp [Block.isLive_eq_false_of_isFreed hr.1]
  | none | attaching | inserting | failed => cases hl

/-- rundown の参照を持つ thread がいるのは、リストにつながっているか、外れて待ちが戻る前の client だけ。 -/
theorem RecordOk.counted (hr : RecordOk m x h p) (hh : 0 < h) :
    p = .attached ∨ p = .detached ∨ ∃ w, p = .closing w := by
  cases p <;> simp_all [RecordOk]

/-- リストにつながった client の、生きている record の rundown が開いていれば、まだ完了の work item が走っていない。 -/
theorem RecordOk.open_phase (hr : RecordOk m x h p) (hl : p.linked = true) (hlive : (m.pool x).isLive = true)
    (hact : (m.clientAt x).rundown.protection.active = false) : p = .attached ∨ p = .detached := by
  cases p with
  | attached => exact .inl rfl
  | detached => exact .inr rfl
  | closing _ => simp [hr.2.2.2] at hact
  | completed => simp [hr.2.2.1] at hact
  | cleanedUp => simp [Block.isLive_eq_false_of_isFreed hr.1] at hlive
  | none | attaching | inserting | failed => cases hl

/-- そういう client の record の、rundown の参照の数だけを `h'` に書き換える。 -/
theorem RecordOk.setCount {f : HookClient → HookClient} (hr : RecordOk m x h p)
    (hp : p = .attached ∨ p = .detached ∨ ∃ w, p = .closing w)
    (hf : (m.clientAt x).rundown.protection.count = h → f (m.clientAt x) = { m.clientAt x with
      rundown := { (m.clientAt x).rundown with protection := { (m.clientAt x).rundown.protection with count := h' } } }) :
    RecordOk (m.updateClient x f) x h' p := by
  have hcount : (m.clientAt x).rundown.protection.count = h := by
    rcases hp with rfl | rfl | ⟨w, rfl⟩
    · rw [hr.2.2]
    · rw [hr.2.2]
    · rw [hr.2.2.2]
  obtain ⟨r, hlive⟩ : LiveClient m x := by rcases hp with rfl | rfl | ⟨w, rfl⟩ <;> exact hr.1
  have hlive' := Memory.updateClient_pool_live (f := f) hlive
  have hr' := Memory.clientAt_of_live hlive
  have hf := hf hcount
  rw [hr'] at hf
  rcases hp with rfl | rfl | ⟨w, rfl⟩ <;>
    simp only [RecordOk, WorkItemIn, LiveClient, hr', Memory.clientAt_of_live hlive', hf,
      Memory.updateClient_workItems] at hr ⊢
  · exact ⟨⟨_, hlive'⟩, hr.2.1, by rw [hr.2.2]⟩
  · exact ⟨⟨_, hlive'⟩, hr.2.1, by rw [hr.2.2]⟩
  · exact ⟨⟨_, hlive'⟩, hr.2.1, hr.2.2.1, by rw [hr.2.2.2]⟩

end Count

/--
enter の step でできること：`t` は `c` を見つけていて、`c` のブロックは生きている。rundown が開いていれば
（`c` はリストにあるか、外れて完了の work item がまだ走っていない）参照を一つ増やして `entered c` に進み、
閉じていれば何も変えずに `c` を済ませる。
-/
theorem step_enter {t : Nat} (hi : Inv hd s) (h : step cb hd s (.enter t) = .next s') :
    ∃ c, s.invokers[t]? = some (.found c) ∧ (s.mem.pool c).isLive = true ∧
      ((s.mem.clientAt c).rundown.protection.active = false ∧ (s.phase c = .attached ∨ s.phase c = .detached) ∧
          s' = { s with mem := s.mem.updateClient c fun c' => { c' with rundown := { c'.rundown with
                    protection := ⟨holders s c + 1, false⟩ } },
                        invokers := s.invokers.set t (.entered c) } ∨
        (s.mem.clientAt c).rundown.protection.active = true ∧ s' = { s with invokers := s.invokers.set t (.passed c) }) := by
  obtain ⟨c, ht⟩ : ∃ c, s.invokers[t]? = some (.found c) := by
    cases ht : s.invokers[t]? with
    | none => simp [step, ht] at h
    | some pc => cases pc <;> simp [step, ht] at h ⊢
  have hl : (s.mem.pool c).isLive = true := by
    by_contra hl
    simp [step, ht, hl] at h
  refine ⟨c, ht, hl, ?_⟩
  have hr := hi.record c
  cases hact : (s.mem.clientAt c).rundown.protection.active
  · have hp := hr.open_phase (hi.found t c ht) hl hact
    have hrd : (s.mem.clientAt c).rundown = ⟨⟨holders s c, false⟩, false⟩ := by
      rcases hp with hp | hp <;> rw [hp] at hr <;> exact hr.2.2
    simp only [step, ht, hl, Bool.not_true, Bool.false_eq_true, if_false, ebpfExtensionHookClientEnterRundown_eq,
      hrd, exAcquireRundownProtection, if_true] at h
    exact .inl ⟨rfl, hp, (Outcome.next.inj h).symm⟩
  · obtain ⟨r, hlive⟩ := hr.liveClient (hi.found t c ht) hl
    simp only [step, ht, hl, Bool.not_true, Bool.false_eq_true, if_false,
      ebpfExtensionHookClientEnterRundown_closed hlive hact] at h
    exact .inr ⟨rfl, (Outcome.next.inj h).symm⟩

/-- `ebpf_extension_hook_client_enter_rundown`。 -/
theorem Inv.enter {t : Nat} (hi : Inv hd s) (h : step cb hd s (.enter t) = .next s') : Inv hd s' := by
  obtain ⟨c, ht, -, ⟨hact, hp, rfl⟩ | ⟨-, rfl⟩⟩ := step_enter hi h
  · refine hi.touchClient ht (fun x hx => ⟨rfl, by simp [Ne.symm hx]⟩) (fun _ => rfl) ?_ (fun _ h => by cases h)
    simp only [InvokerPc.holds_found, InvokerPc.holds_entered, beq_self_eq_true, if_true, Bool.false_eq_true,
      if_false, Nat.sub_zero]
    exact (hi.record c).setCount (hp.imp id .inl) fun hc => by simp only [hc, hact]
  · exact hi.setInvoker ht hi.accounted hi.clientList rfl rfl (fun x => by simpa using hi.record x) (fun _ => rfl)
      (fun _ h => by cases h)

/-- `ebpf_extension_hook_invoke_program`：rundown の参照を持ったまま program を呼ぶ。 -/
theorem Inv.invoke {t : Nat} (hi : Inv hd s) (h : step cb hd s (.invoke t) = .next s') : Inv hd s' := by
  obtain ⟨c, ht, -, rfl⟩ := step_invoke h
  have hpos := holders_pos ht (show (InvokerPc.entered c).holds c = true by simp)
  refine hi.setInvoker ht hi.accounted hi.clientList rfl rfl (fun x => ?_) (fun _ => rfl) (fun _ h => by cases h)
  by_cases hxc : x = c
  · subst hxc
    simpa [Nat.sub_add_cancel hpos] using hi.record x
  · simpa [Ne.symm hxc] using hi.record x

/-- `ebpf_extension_hook_client_leave_rundown`：参照を一つ返して `c` を済ませる。 -/
theorem Inv.leave {t : Nat} (hi : Inv hd s) (h : step cb hd s (.leave t) = .next s') : Inv hd s' := by
  obtain ⟨c, ht, -, rfl⟩ := step_leave h
  have hp := (hi.record c).counted (holders_pos ht (show (InvokerPc.invoked c).holds c = true by simp))
  refine hi.touchClient ht (fun x hx => ⟨by simp [Ne.symm hx], rfl⟩) (fun _ => rfl) ?_ (fun _ h => by cases h)
  simp only [InvokerPc.holds_invoked, beq_self_eq_true, if_true, InvokerPc.holds_passed, Bool.false_eq_true,
    if_false, Nat.add_zero]
  exact (hi.record c).setCount hp fun hc => by simp only [exReleaseRundownProtection, hc]

/-! ## client をたどる thread -/

/-- たどる thread の位置は `Inv` に現れない。 -/
theorem Inv.setIterators (hi : Inv hd s) (its : List IteratorPc) : Inv hd { s with iterators := its } :=
  ⟨hi.accounted, hi.clientList, hi.attached_iff, hi.phase_fresh, hi.phase_null, hi.phase_hd, hi.record,
    hi.workItem_le, hi.workItem_inj, hi.found⟩

/-- `ebpf_extension_hook_get_next_attached_client` は、メモリを変えない。 -/
theorem Inv.iterate {t : Nat} (hi : Inv hd s) (h : step cb hd s (.iterate t) = .next s') : Inv hd s' := by
  obtain ⟨c, -, rfl⟩ := step_iterate h
  exact hi.setIterators _

/-! ## どの event も -/

/-- どの event の step も `Inv` を保つ。 -/
theorem Inv.step (hi : Inv hd s) (hli : LinkInv hd s) {e : Event} (h : EbpfExt.step cb hd s e = .next s') :
    Inv hd s' := by
  cases e with
  | attachBegin env args => exact hi.attachBegin h
  | attachCallback a => exact hi.attachCallback h
  | attachInsert a => exact hi.attachInsert h
  | detach c => exact hi.detach h
  | completionBegin c => exact hi.completionBegin h
  | completionEnd c => exact hi.completionEnd h
  | cleanup c => exact hi.cleanup h
  | lookup t => exact hi.lookup h
  | lookupNext t => exact hi.lookupNext hli h
  | enter t => exact hi.enter h
  | invoke t => exact hi.invoke h
  | leave t => exact hi.leave h
  | iterate t => exact hi.iterate h

end EbpfExt
