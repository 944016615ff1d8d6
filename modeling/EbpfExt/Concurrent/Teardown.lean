import EbpfExt.Concurrent.Progress

/-!
# provider を外すと、割り当てたものはみな一度ずつ解放されている

`ebpf_extension_hook_provider_unregister` は、`NmrWaitForProviderDeregisterComplete` で client がみな detach
されるのを待ってから provider の record を解放する。待ちが戻るところまで進めれば（`Reach.settleAll`）、
run の中で `ExAllocatePoolUninitialized` と `IoAllocateWorkItem` が割り当てたものは、どれもちょうど一度
解放されている。

* `Owned` — 割り当てたブロックは provider か client の record で、割り当てた work item には持ち主の client が
  いて、attach が失敗した client と後片付けの済んだ client の work item は解放済み
* `Reach.owned` — 着けるどの状態でも `Owned`
* `reach_unregister_freesAll` — どの client も終わるまで進めて unregister すると、漏れも二重の解放もない
-/

namespace EbpfExt

variable {cb : AttachCallback} {hd : Nat} {s s' : Sys}

/-! ## 持ち主 -/

/-- client `x` の work item は、ないか、解放済み。 -/
def WorkItemDone (m : Memory) (x : Nat) : Prop :=
  (m.clientAt x).detachWorkItem = 0 ∨ m.workItems (m.clientAt x).detachWorkItem = .freed

/-- 割り当てたブロックと work item の持ち主。 -/
structure Owned (hd : Nat) (s : Sys) : Prop where
  /-- provider の record は生きている。 -/
  provider : (s.mem.pool hd).isLive = true
  /-- 割り当てたブロックは、provider の record か、client の record。 -/
  block : ∀ x, 0 < x → x ≤ s.mem.lastAddr → x = hd ∨ s.phase x ≠ .none
  /-- 割り当てた work item には、それを持つ client がいる。 -/
  workItem : ∀ w, 0 < w → w ≤ s.mem.lastWorkItem → ∃ x, s.phase x ≠ .none ∧ (s.mem.clientAt x).detachWorkItem = w
  /-- attach が失敗した client と、後片付けの済んだ client の work item は、ないか解放済み。 -/
  settled : ∀ x, s.phase x = .failed ∨ s.phase x = .cleanedUp → WorkItemDone s.mem x

/-- register した直後は、provider の record だけがある。 -/
theorem Owned.initial {allocOk : Bool} {nmrStatus st : NtStatus} {m : Memory} (n k : Nat)
    (hr : ebpfExtensionHookProviderRegister allocOk nmrStatus Memory.empty = (st, hd, m)) (hs : ntSuccess st = true) :
    Owned hd (Sys.initial m n k) := by
  obtain ⟨rfl, rfl⟩ := ebpfExtensionHookProviderRegister_eq hr hs
  refine ⟨by simp [Sys.initial, Memory.allocate, Block.isLive], fun x hx hxl => .inl ?_, fun w hw hwl => ?_,
    fun x hx => ?_⟩ <;> simp [Sys.initial, Memory.allocate, Memory.empty] at *
  · omega
  · omega

theorem Memory.detachWorkItem_updateClient {m : Memory} {a x : Nat} {f : HookClient → HookClient}
    (hf : ∀ c, (f c).detachWorkItem = c.detachWorkItem) :
    ((m.updateClient a f).clientAt x).detachWorkItem = (m.clientAt x).detachWorkItem := by
  rw [Memory.clientAt_updateClient]
  split_ifs with h
  · rw [h.1, hf]
  · rfl

/-- phase を変えず、ブロックの生死も client の work item も work item の状態も変えない step。 -/
theorem Owned.of_eq (ho : Owned hd s) (hp : s'.phase = s.phase) (hlast : s'.mem.lastAddr = s.mem.lastAddr)
    (hlastW : s'.mem.lastWorkItem = s.mem.lastWorkItem) (hhd : (s'.mem.pool hd).isLive = (s.mem.pool hd).isLive)
    (hc : ∀ x, (s'.mem.clientAt x).detachWorkItem = (s.mem.clientAt x).detachWorkItem)
    (hw : s'.mem.workItems = s.mem.workItems) : Owned hd s' := by
  refine ⟨hhd ▸ ho.provider, fun x hx hxl => ?_, fun w hw' hwl => ?_, fun x hx => ?_⟩ <;> rw [hp] at *
  · exact ho.block x hx (hlast ▸ hxl)
  · obtain ⟨x, hx, hxw⟩ := ho.workItem w hw' (hlastW ▸ hwl)
    exact ⟨x, hx, (hc x).trans hxw⟩
  · unfold WorkItemDone
    rw [hc, hw]
    exact ho.settled x hx

/-- rundown だけを書き換える `updateClient`（enter、leave）。 -/
theorem Owned.updateClient (ho : Owned hd s) {a : Nat} {f : HookClient → HookClient}
    (hf : ∀ c, (f c).detachWorkItem = c.detachWorkItem) (is : List InvokerPc) :
    Owned hd { s with mem := s.mem.updateClient a f, invokers := is } := by
  refine ho.of_eq rfl rfl rfl ?_ (fun _ => Memory.detachWorkItem_updateClient hf) rfl
  dsimp only
  rw [Memory.updateClient_pool]
  split_ifs <;> simp_all

/--
client `a` の phase を `p` に進める step。ブロックを増やさず、`a` のほかの record を変えず、`a` の work item の
ほかの work item を変えず、`a` が終わるなら `a` の work item はないか解放済み。
-/
theorem Owned.advance (ho : Owned hd s) (hi : Inv hd s) {a : Nat} {p : Phase} {m' : Memory} {L : List Nat}
    (hpa : s.phase a ≠ .none) (hp : p ≠ .none)
    (hlast : m'.lastAddr = s.mem.lastAddr) (hlastW : m'.lastWorkItem = s.mem.lastWorkItem)
    (hpool : ∀ x, x ≠ a → m'.pool x = s.mem.pool x)
    (hwa : (m'.clientAt a).detachWorkItem = (s.mem.clientAt a).detachWorkItem)
    (hwi : ∀ x, x ≠ a → s.phase x ≠ .none →
      m'.workItems (s.mem.clientAt x).detachWorkItem = s.mem.workItems (s.mem.clientAt x).detachWorkItem)
    (hdone : p = .failed ∨ p = .cleanedUp → WorkItemDone m' a) :
    Owned hd { s with mem := m', phase := Function.update s.phase a p, attached := L } := by
  have hc : ∀ x, (m'.clientAt x).detachWorkItem = (s.mem.clientAt x).detachWorkItem := fun x => by
    by_cases hxa : x = a
    · rw [hxa, hwa]
    · rw [Memory.clientAt_congr (hpool x hxa)]
  have hnone : ∀ x, Function.update s.phase a p x ≠ .none ↔ s.phase x ≠ .none := fun x => by
    by_cases hxa : x = a
    · subst hxa
      simp [hp, hpa]
    · rw [Function.update_noteq hxa]
  refine ⟨?_, fun x hx hxl => ?_, fun w hw hwl => ?_, fun x hx => ?_⟩ <;> dsimp only at *
  · rw [hpool hd fun h => hpa (h ▸ hi.phase_hd)]
    exact ho.provider
  · exact (ho.block x hx (hlast ▸ hxl)).imp_right (hnone x).mpr
  · obtain ⟨x, hx, hxw⟩ := ho.workItem w hw (hlastW ▸ hwl)
    exact ⟨x, (hnone x).mpr hx, (hc x).trans hxw⟩
  · by_cases hxa : x = a
    · subst hxa
      rw [Function.update_same] at hx
      exact hdone hx
    · rw [Function.update_noteq hxa] at hx
      have hxn : s.phase x ≠ .none := by rcases hx with h | h <;> rw [h] <;> nofun
      unfold WorkItemDone
      rw [hc x, hwi x hxa hxn]
      exact ho.settled x hx

/--
attach が新しい record `lastAddr + 1` を作り、phase を `p` にする step。ほかのブロックと、それまでの work item は
変えず、新しい work item があればそれは新しい record のもの。
-/
theorem Owned.newClient (ho : Owned hd s) (hi : Inv hd s) {p : Phase} {m' : Memory} (hp : p ≠ .none)
    (hlast : m'.lastAddr = s.mem.lastAddr + 1) (hpool : ∀ x, x ≤ s.mem.lastAddr → m'.pool x = s.mem.pool x)
    (hwi : ∀ w, w ≤ s.mem.lastWorkItem → m'.workItems w = s.mem.workItems w)
    (hnew : ∀ w, 0 < w → w ≤ m'.lastWorkItem →
      w ≤ s.mem.lastWorkItem ∨ (m'.clientAt (s.mem.lastAddr + 1)).detachWorkItem = w)
    (hdone : p = .failed ∨ p = .cleanedUp → WorkItemDone m' (s.mem.lastAddr + 1)) :
    Owned hd { s with mem := m', phase := Function.update s.phase (s.mem.lastAddr + 1) p } := by
  have hold : ∀ x, s.phase x ≠ .none → x ≠ s.mem.lastAddr + 1 ∧ m'.clientAt x = s.mem.clientAt x := fun x hx =>
    have hxl := (hi.addr hx).2.2
    ⟨by omega, Memory.clientAt_congr (hpool x hxl)⟩
  refine ⟨?_, fun x hx hxl => ?_, fun w hw hwl => ?_, fun x hx => ?_⟩ <;> dsimp only at *
  · rw [hpool hd (hi.clientList.2 hd (List.mem_cons_self _ _)).2]
    exact ho.provider
  · by_cases hxa : x = s.mem.lastAddr + 1
    · subst hxa
      exact .inr (by rw [Function.update_same]; exact hp)
    · rw [Function.update_noteq hxa]
      exact ho.block x hx (by omega)
  · rcases hnew w hw hwl with hwl' | hw'
    · obtain ⟨x, hx, hxw⟩ := ho.workItem w hw hwl'
      obtain ⟨hxa, hcx⟩ := hold x hx
      exact ⟨x, by rw [Function.update_noteq hxa]; exact hx, by rw [hcx, hxw]⟩
    · exact ⟨_, by rw [Function.update_same]; exact hp, hw'⟩
  · by_cases hxa : x = s.mem.lastAddr + 1
    · subst hxa
      rw [Function.update_same] at hx
      exact hdone hx
    · rw [Function.update_noteq hxa] at hx
      have hxn : s.phase x ≠ .none := by rcases hx with h | h <;> rw [h] <;> nofun
      unfold WorkItemDone
      rw [(hold x hxn).2]
      rcases ho.settled x hx with h0 | hf
      · exact .inl h0
      · exact .inr (by rw [hwi _ (hi.workItem_le x hxn), hf])

/-! ## 一つの step -/

section Step

variable (ho : Owned hd s) (hi : Inv hd s)
include ho hi

/-- attach の `attach_callback` の前まで：失敗した record は work item を持たず、新しい work item は新しい record のもの。 -/
theorem Owned.attachBegin {env : AttachEnv} {args : AttachClientArgs}
    (h : EbpfExt.step cb hd s (.attachBegin env args) = .next s') : Owned hd s' := by
  rcases step_attachBegin h with rfl | ⟨c, hc, rfl⟩ | ⟨c, hc, -, rfl⟩
  · exact ho
  · rw [ebpfExtensionHookClientCleanup_eq_of_zero (Nat.succ_ne_zero _) (by simpa using hc)]
    refine ho.newClient hi (by decide) (by simp) (fun x hx => ?_) (fun _ _ => rfl)
      (fun w _ hw => .inl (by simpa using hw)) (fun _ => .inl (by simpa using hc))
    have hx' : x ≠ s.mem.lastAddr + 1 := by omega
    simp [hx', Memory.withNewClient_pool_ne hx']
  · refine ho.newClient hi (by decide) (by simp) (fun x hx => ?_) (fun w hw => ?_)
      (fun w _ hw => ?_) (fun h => by simp at h)
    · simp [Memory.withNewClient_pool_ne (show x ≠ s.mem.lastAddr + 1 by omega)]
    · simp [show w ≠ s.mem.lastWorkItem + 1 by omega]
    · simp only [Memory.clientAt_allocateWorkItem, Memory.clientAt_withNewClient, hc]
      simp at hw
      omega

/-- `attach_callback`：断れば record と work item を解放して `failed`。 -/
theorem Owned.attachCallback {a : Nat} (h : EbpfExt.step cb hd s (.attachCallback a) = .next s') : Owned hd s' := by
  obtain ⟨hp, hs'⟩ := step_attachCallback h
  have hpa : s.phase a ≠ .none := by rw [hp]; decide
  rcases hs' with ⟨-, rfl⟩ | rfl
  · exact ho.advance hi hpa (by decide) rfl rfl (fun _ _ => rfl) rfl (fun _ _ _ => rfl) (by simp)
  · have hr := hi.record a
    rw [hp] at hr
    obtain ⟨-, ⟨hw0, -⟩, -⟩ := hr
    rw [ebpfExtensionHookClientCleanup_eq (hi.addr hpa).1 hw0]
    exact ho.advance hi hpa (by decide) (by simp) (by simp) (fun x hx => by simp [hx]) (by simp)
      (hi.workItems_other hpa hw0 fun v hv => by simp [hv]) fun _ => .inr (by simp)

/-- `InsertTailList` は `LIST_ENTRY` と lock だけを書き換える。 -/
theorem Owned.attachInsert {a : Nat} (h : EbpfExt.step cb hd s (.attachInsert a) = .next s') : Owned hd s' := by
  obtain ⟨hp, M, hins, rfl⟩ := step_attachInsert h
  obtain ⟨hnot, ha0, hal⟩ := hi.inserting_not_mem hp
  obtain ⟨M', hins', -, hpool, hlast, hwi, -, -, hlw⟩ := attachClientInsert_clientList hi.clientList hnot ha0 hal
  obtain rfl : M = M' := Option.some.inj (hins.symm.trans hins')
  exact ho.advance hi (by rw [hp]; decide) (by decide) hlast hlw (fun _ _ => by rw [hpool])
    (by simp only [Memory.clientAt, hpool]) (fun _ _ _ => by rw [hwi]) (by simp)

/-- detach は自分の work item を queue するだけ。 -/
theorem Owned.detach {c : Nat} (h : EbpfExt.step cb hd s (.detach c) = .next s') : Owned hd s' := by
  obtain ⟨hp, st, m, hdet, rfl⟩ := step_detach h
  obtain ⟨links, hdet', -⟩ := hi.detachClient hp
  simp only [hdet', Option.some.injEq, Prod.mk.injEq] at hdet
  obtain ⟨-, rfl⟩ := hdet
  have hpa : s.phase c ≠ .none := by rw [hp]; decide
  have hr := hi.record c
  rw [hp] at hr
  exact ho.advance hi hpa (by decide) rfl rfl (fun _ _ => rfl) rfl
    (hi.workItems_other hpa hr.2.1.1 fun v hv => by simp [hv]) (by simp)

/-- 完了の work item が走り出す。 -/
theorem Owned.completionBegin {c : Nat} (h : EbpfExt.step cb hd s (.completionBegin c) = .next s') : Owned hd s' := by
  obtain ⟨hp, rfl⟩ := step_completionBegin h
  have hpa : s.phase c ≠ .none := by rw [hp]; decide
  have hr := hi.record c
  rw [hp] at hr
  exact ho.advance hi hpa (by simp) rfl rfl (fun x hx => by simp [waitForRundownBegin, Memory.updateClient_pool, hx])
    (Memory.detachWorkItem_updateClient fun _ => rfl)
    (hi.workItems_other hpa hr.2.1.1 fun v hv => by simp [waitForRundownBegin, hv]) (by simp)

/-- 待ちが戻り、work item を解放する。 -/
theorem Owned.completionEnd {c : Nat} (h : EbpfExt.step cb hd s (.completionEnd c) = .next s') : Owned hd s' := by
  obtain ⟨w, hp, -, rfl⟩ := step_completionEnd h
  have hpa : s.phase c ≠ .none := by rw [hp]; simp
  have hr := hi.record c
  rw [hp] at hr
  obtain ⟨-, rfl, ⟨hw0, -⟩, -⟩ := hr
  exact ho.advance hi hpa (by decide) rfl rfl (fun x hx => by simp [Memory.updateClient_pool, hx])
    (Memory.detachWorkItem_updateClient fun _ => rfl)
    (hi.workItems_other hpa hw0 fun v hv => by simp [hv]) (by simp)

/-- binding context の後片付けは record を解放し、work item は完了の work item がもう解放している。 -/
theorem Owned.cleanup {c : Nat} (h : EbpfExt.step cb hd s (.cleanup c) = .next s') : Owned hd s' := by
  obtain ⟨hp, rfl⟩ := step_cleanup h
  have hpa : s.phase c ≠ .none := by rw [hp]; decide
  have hr := hi.record c
  rw [hp] at hr
  obtain ⟨-, ⟨-, hwf⟩, -⟩ := hr
  rw [show ebpfExtensionHookProviderCleanupBindingContext c s.mem = exFreePool c s.mem by
    simp [ebpfExtensionHookProviderCleanupBindingContext, (hi.addr hpa).1]]
  exact ho.advance hi hpa (by decide) rfl rfl (fun x hx => by simp [hx]) (by simp) (fun _ _ _ => rfl)
    fun _ => .inr (by simpa using hwf)

/-- どの event の step も `Owned` を保つ。 -/
theorem Owned.step {e : Event} (h : EbpfExt.step cb hd s e = .next s') : Owned hd s' := by
  cases e with
  | attachBegin env args => exact ho.attachBegin hi h
  | attachCallback a => exact ho.attachCallback hi h
  | attachInsert a => exact ho.attachInsert hi h
  | detach c => exact ho.detach hi h
  | completionBegin c => exact ho.completionBegin hi h
  | completionEnd c => exact ho.completionEnd hi h
  | cleanup c => exact ho.cleanup hi h
  | lookup t =>
    obtain ⟨-, rfl⟩ := step_lookup h
    exact ⟨ho.provider, ho.block, ho.workItem, ho.settled⟩
  | lookupNext t =>
    obtain ⟨c, -, rfl⟩ := step_lookupNext h
    exact ⟨ho.provider, ho.block, ho.workItem, ho.settled⟩
  | enter t =>
    obtain ⟨c, -, -, ⟨-, -, rfl⟩ | ⟨-, rfl⟩⟩ := step_enter hi h
    · exact ho.updateClient (by intro; rfl) _
    · exact ⟨ho.provider, ho.block, ho.workItem, ho.settled⟩
  | invoke t =>
    obtain ⟨c, -, -, rfl⟩ := step_invoke h
    exact ⟨ho.provider, ho.block, ho.workItem, ho.settled⟩
  | leave t =>
    obtain ⟨c, -, -, rfl⟩ := step_leave h
    exact ho.updateClient (by intro; rfl) _
  | iterate t =>
    obtain ⟨c, -, rfl⟩ := step_iterate h
    exact ⟨ho.provider, ho.block, ho.workItem, ho.settled⟩

end Step

/-- 着けるどの状態でも `Owned`。 -/
theorem Reach.owned (h : Reach cb hd s) : Owned hd s := by
  induction h with
  | init n k hr hs => exact Owned.initial n k hr hs
  | step hr hst ih => exact ih.step hr.inv hst

/-! ## unregister -/

/--
着けるどの状態からも、binding の event と参照を返す thread の event だけでどの client も終わらせ
（`NmrWaitForProviderDeregisterComplete` が待つところ）、そこで `ebpf_extension_hook_provider_unregister` が
provider の record を解放すると、割り当てたブロック（provider と client の record）と work item は、どれも
ちょうど一度ずつ解放されている。漏れも二重の解放もない。
-/
theorem reach_unregister_freesAll (hs : Reach cb hd s) :
    ∃ es s', run cb hd s es = .next s' ∧ (∀ e ∈ es, e.bindingClient.isSome ∨ e.releaseThread.isSome) ∧
      (∀ x, 0 < x → x ≤ s'.mem.lastAddr → (ebpfExtensionHookProviderUnregister hd s'.mem).poolFrees x = 1) ∧
      ∀ w, 0 < w → w ≤ s'.mem.lastWorkItem → (ebpfExtensionHookProviderUnregister hd s'.mem).workItemFrees w = 1 := by
  obtain ⟨es, s', hrun, hes, hsettled, -⟩ := hs.settleAll
  have hi := (hs.run hrun).inv
  have ho := (hs.run hrun).owned
  have hfin : ∀ x, s'.phase x ≠ .none → s'.phase x = .failed ∨ s'.phase x = .cleanedUp :=
    fun x hx => (Phase.rank_eq_zero.mp (hsettled x)).resolve_left hx
  have hunreg : ebpfExtensionHookProviderUnregister hd s'.mem = exFreePool hd s'.mem :=
    if_pos (hi.clientList.2 hd (List.mem_cons_self _ _)).1.ne'
  refine ⟨es, s', hrun, hes, fun x hx hxl => ?_, fun w hw hwl => ?_⟩ <;> rw [hunreg]
  · rw [exFreePool_poolFrees]
    split_ifs with hxhd
    · have hnf : (s'.mem.pool hd).isFreed = false := by
        cases h : (s'.mem.pool hd).isFreed
        · rfl
        · simpa [Block.isLive_eq_false_of_isFreed h] using ho.provider
      rw [hi.accounted.poolFrees, hnf]
      rfl
    · have hx' := (ho.block x hx hxl).resolve_left hxhd
      rw [hi.accounted.poolFrees, if_pos (((hi.record x).of_rank_zero (hsettled x)).2 hx')]
  · obtain ⟨x, hx, rfl⟩ := ho.workItem w hw hwl
    rcases ho.settled x (hfin x hx) with h0 | hf
    · omega
    · rw [exFreePool_workItemFrees, hi.accounted.workItemFrees, if_pos hf]

theorem reach_unregister_freesAll_enteredDetached :
    ∃ s, Reach (checkingCallback 3 [0, 0, 0] 1) 1 s ∧ s.phase 2 = .detached ∧ s.invokers[0]? = some (.entered 2) ∧
      ∃ es s', run (checkingCallback 3 [0, 0, 0] 1) 1 s es = .next s' ∧
        (∀ e ∈ es, e.bindingClient.isSome ∨ e.releaseThread.isSome) ∧
        (∀ x, 0 < x → x ≤ s'.mem.lastAddr → (ebpfExtensionHookProviderUnregister 1 s'.mem).poolFrees x = 1) ∧
        ∀ w, 0 < w → w ≤ s'.mem.lastWorkItem → (ebpfExtensionHookProviderUnregister 1 s'.mem).workItemFrees w = 1 :=
  have hs := reach_of_registered_run (checkingCallback 3 [0, 0, 0] 1) 1 0 enterDetachEvents rfl
  ⟨_, hs, rfl, rfl, reach_unregister_freesAll hs⟩

end EbpfExt
