import EbpfExt.Concurrent.System

/-!
# 一つの step でできること

event ごとに、進む step の前の状態の条件と次の状態を一つの補題で言う。不変条件の証明は、`step` を開かずに
これらを使う。

* `step_attachBegin` … `step_iterate` — event ごとの、進む step の形（enter は `Inv` を使うので `Preservation` にある）
-/

namespace EbpfExt

variable {cb : AttachCallback} {hd : Nat} {s s' : Sys}

/-! ## メモリの操作 -/

section Memory

variable {m : Memory} {a : Nat}

theorem ebpfExtensionHookClientCleanup_eq (ha : a ≠ 0) (hw : (m.clientAt a).detachWorkItem ≠ 0) :
    ebpfExtensionHookClientCleanup a m = exFreePool a (ioFreeWorkItem (m.clientAt a).detachWorkItem m) := by
  simp only [ebpfExtensionHookClientCleanup, ha, hw, if_false, ne_eq, not_false_eq_true, if_true]

theorem ebpfExtensionHookClientCleanup_eq_of_zero (ha : a ≠ 0) (hw : (m.clientAt a).detachWorkItem = 0) :
    ebpfExtensionHookClientCleanup a m = exFreePool a m := by
  simp only [ebpfExtensionHookClientCleanup, ha, hw, if_false, ne_eq, not_true_eq_false]

@[simp] theorem ebpfExtensionHookClientCleanup_links : (ebpfExtensionHookClientCleanup a m).links = m.links := by
  unfold ebpfExtensionHookClientCleanup
  dsimp only
  split_ifs <;> rfl

@[simp] theorem ebpfExtensionHookProviderCleanupBindingContext_links :
    (ebpfExtensionHookProviderCleanupBindingContext a m).links = m.links := by
  unfold ebpfExtensionHookProviderCleanupBindingContext
  split_ifs <;> rfl

theorem waitForRundownEnd_eq_some {m' : Memory} (h : waitForRundownEnd a m = some m') :
    (m.clientAt a).rundown.protection.count = 0 ∧
      m' = m.updateClient a fun c => { c with rundown := { c.rundown with rundownOccurred := true } } := by
  unfold waitForRundownEnd at h
  split at h
  · exact ⟨‹_›, (Option.some.inj h).symm⟩
  · cases h

theorem Block.isLive_eq_false_of_isFreed {b : Block} (h : b.isFreed = true) : b.isLive = false := by
  cases b <;> simp_all [Block.isFreed, Block.isLive]

/-- 生きているブロックを解放すると、解放済みになる。 -/
theorem exFreePool_pool_self_isFreed (h : (m.pool a).isLive = true) : ((exFreePool a m).pool a).isFreed = true := by
  rw [exFreePool_pool, if_pos rfl]
  rcases hp : m.pool a with _ | _ | _ <;> simp_all [Block.isLive, Block.free, Block.isFreed]

theorem ebpfExtensionHookClientEnterRundown_eq :
    ebpfExtensionHookClientEnterRundown a m =
      ((exAcquireRundownProtection (m.clientAt a).rundown.protection).1,
        m.updateClient a fun c => { c with rundown := { c.rundown with
          protection := (exAcquireRundownProtection (m.clientAt a).rundown.protection).2 } }) := rfl

/-- 生きている record に元と同じ値を書き戻しても、メモリは変わらない。 -/
theorem Memory.updateClient_eq_self {f : HookClient → HookClient} {r : HookClient}
    (h : m.pool a = .live (.client r)) (hf : f r = r) : m.updateClient a f = m := by
  have hb : (m.pool a).mapClient f = m.pool a := by rw [h, Block.mapClient, hf]
  simp only [Memory.updateClient, hb, Function.update_eq_self]

/-- 閉じた rundown には入れない。書き戻すのは元の値なので、メモリは変わらない。 -/
theorem ebpfExtensionHookClientEnterRundown_closed {r : HookClient} (h : m.pool a = .live (.client r))
    (hact : (m.clientAt a).rundown.protection.active = true) :
    ebpfExtensionHookClientEnterRundown a m = (false, m) := by
  simp only [ebpfExtensionHookClientEnterRundown_eq, exAcquireRundownProtection, hact, if_true]
  rw [Memory.updateClient_eq_self h (by rw [Memory.clientAt_of_live h])]

/-- `ebpf_extension_hook_get_next_attached_client` は共有 lock を取って放すだけで、メモリは元に戻る。 -/
theorem ebpfExtensionHookGetNextAttachedClient_eq {p c : Nat} :
    ebpfExtensionHookGetNextAttachedClient p c m = ((ebpfExtensionHookGetNextAttachedClient p c m).1, m) :=
  Prod.ext rfl Memory.withLock_shared_release_acquire

theorem ebpfExtensionHookGetAttachedClient_eq {p : Nat} :
    ebpfExtensionHookGetAttachedClient p m = ((ebpfExtensionHookGetAttachedClient p m).1, m) :=
  Prod.ext rfl Memory.withLock_shared_release_acquire

end Memory

/-! ## binding の操作 -/

/--
attach の `attach_callback` の前まで：引数の確認か record の割り当てで何も変えずに止まるか、
新しい record を作って work item の前に失敗し（record は解放済み）、または新しい record と work item を作る。
-/
theorem step_attachBegin {env : AttachEnv} {args : AttachClientArgs}
    (h : step cb hd s (.attachBegin env args) = .next s') :
    s' = s ∨
      (∃ c : HookClient, c.detachWorkItem = 0 ∧
        s' = { s with mem := ebpfExtensionHookClientCleanup (s.mem.lastAddr + 1) (s.mem.withNewClient c),
                      phase := Function.update s.phase (s.mem.lastAddr + 1) .failed }) ∨
      (∃ c : HookClient, c.detachWorkItem = s.mem.lastWorkItem + 1 ∧ c.rundown = ⟨⟨0, false⟩, false⟩ ∧
        s' = { s with mem := (s.mem.withNewClient c).allocateWorkItem,
                      phase := Function.update s.phase (s.mem.lastAddr + 1) .attaching }) := by
  by_cases hpc : args.providerContext = hd
  · simp only [step, hpc, ne_eq, not_true_eq_false, if_false] at h
    by_cases hn : NullArgs args
    · rw [attachClientPrologue_of_nullArgs hn] at h
      exact .inl (Outcome.next.inj h).symm
    cases ha : env.hookClientOk
    · rw [attachClientPrologue_of_alloc_fail hn ha] at h
      exact .inl (Outcome.next.inj h).symm
    cases hdisp : args.clientDispatch with
    | none =>
      rw [attachClientPrologue_of_dispatch_null hn ha hdisp] at h
      refine .inr (.inl ⟨initialRecord args, rfl, ?_⟩)
      rw [← Outcome.next.inj h]
      simp only [attachClientExit_mem_of_not ntSuccess_statusInvalidParameter, Nat.add_one_ne_zero, if_false]
    | some t =>
      cases hw : env.workItemOk
      · rw [attachClientPrologue_of_workItem_fail hn ha hdisp hw] at h
        refine .inr (.inl ⟨dispatchedRecord args t 0, rfl, ?_⟩)
        rw [← Outcome.next.inj h]
        simp only [attachClientExit_mem_of_not ntSuccess_statusInsufficientResources, Nat.add_one_ne_zero, if_false]
      · rw [attachClientPrologue_of_callback hn ha hdisp hw] at h
        exact .inr (.inr ⟨_, rfl, rfl, (Outcome.next.inj h).symm⟩)
  · simp [step, hpc] at h

/-- `attach_callback`：認めれば `InsertTailList` を待ち、断れば record と work item を解放する。 -/
theorem step_attachCallback {a : Nat} (h : step cb hd s (.attachCallback a) = .next s') :
    s.phase a = .attaching ∧
      (cb s.mem a = .success ∧ s' = { s with phase := Function.update s.phase a .inserting } ∨
        s' = { s with mem := ebpfExtensionHookClientCleanup a s.mem, phase := Function.update s.phase a .failed }) := by
  by_cases hp : s.phase a = .attaching
  · simp only [step, hp, ne_eq, not_true_eq_false, if_false] at h
    refine ⟨hp, ?_⟩
    split_ifs at h with hcb
    · exact .inl ⟨hcb, (Outcome.next.inj h).symm⟩
    · rw [attachClientExit_mem_of_not ntSuccess_statusAccessDenied] at h
      exact .inr (Outcome.next.inj h).symm
  · simp [step, hp] at h

/-- `InsertTailList`：`attach_callback` を通った client をリストの最後につなぐ。 -/
theorem step_attachInsert {a : Nat} (h : step cb hd s (.attachInsert a) = .next s') :
    s.phase a = .inserting ∧ ∃ M, attachClientInsert hd a s.mem = some M ∧
      s' = { s with mem := M, phase := Function.update s.phase a .attached, attached := s.attached ++ [a] } := by
  by_cases hp : s.phase a = .inserting
  · simp only [step, hp, ne_eq, not_true_eq_false, if_false] at h
    cases hins : attachClientInsert hd a s.mem with
    | none => simp [hins] at h
    | some M =>
      simp only [hins, attachClientExit_mem_of_ntSuccess ntSuccess_statusSuccess] at h
      exact ⟨hp, M, rfl, (Outcome.next.inj h).symm⟩
  · simp [step, hp] at h

/-- detach：リストにある client を外し、work item を queue する。 -/
theorem step_detach {c : Nat} (h : step cb hd s (.detach c) = .next s') :
    s.phase c = .attached ∧ ∃ st m, ebpfExtensionHookProviderDetachClient c s.mem = some (st, m) ∧
      s' = { s with mem := m, phase := Function.update s.phase c .detached, attached := s.attached.erase c } := by
  by_cases hp : s.phase c = .attached
  · simp only [step, hp, ne_eq, not_true_eq_false, if_false] at h
    cases hdet : ebpfExtensionHookProviderDetachClient c s.mem with
    | none => simp [hdet] at h
    | some r =>
      simp only [hdet] at h
      exact ⟨hp, r.1, r.2, rfl, (Outcome.next.inj h).symm⟩
  · simp [step, hp] at h

/-- 完了の work item が走り出し、rundown を閉じる（`ExWaitForRundownProtectionRelease` の入口）。 -/
theorem step_completionBegin {c : Nat} (h : step cb hd s (.completionBegin c) = .next s') :
    s.phase c = .detached ∧
      s' = { s with mem := waitForRundownBegin c (runWorkItem (s.mem.clientAt c).detachWorkItem s.mem),
                    phase := Function.update s.phase c (.closing (s.mem.clientAt c).detachWorkItem) } := by
  by_cases hp : s.phase c = .detached
  · simp only [step, hp, ne_eq, not_true_eq_false, if_false] at h
    exact ⟨hp, (Outcome.next.inj h).symm⟩
  · simp [step, hp] at h

/--
待ちが戻る：`c` は待っていて（`closing w`）、rundown の参照の数は `0`。`rundown_occurred = TRUE` にし、
work item を解放して、`NmrProviderDetachClientComplete` を呼ぶ。
-/
theorem step_completionEnd {c : Nat} (h : step cb hd s (.completionEnd c) = .next s') :
    ∃ w, s.phase c = .closing w ∧ (s.mem.clientAt c).rundown.protection.count = 0 ∧
      s' = { s with mem := ioFreeWorkItem w (s.mem.updateClient c fun c =>
                      { c with rundown := { c.rundown with rundownOccurred := true } }),
                    phase := Function.update s.phase c .completed } := by
  obtain ⟨w, hp⟩ : ∃ w, s.phase c = .closing w := by
    cases hp : s.phase c <;> simp [step, hp] at h ⊢
  cases hend : waitForRundownEnd c s.mem with
  | none => simp [step, hp, hend] at h
  | some m =>
    obtain ⟨hcount, rfl⟩ := waitForRundownEnd_eq_some hend
    simp only [step, hp, hend] at h
    exact ⟨w, hp, hcount, (Outcome.next.inj h).symm⟩

/-- binding context の後片付け：`NmrProviderDetachClientComplete` の後で、record を解放する。 -/
theorem step_cleanup {c : Nat} (h : step cb hd s (.cleanup c) = .next s') :
    s.phase c = .completed ∧
      s' = { s with mem := ebpfExtensionHookProviderCleanupBindingContext c s.mem,
                    phase := Function.update s.phase c .cleanedUp } := by
  by_cases hp : s.phase c = .completed
  · simp only [step, hp, ne_eq, not_true_eq_false, if_false] at h
    exact ⟨hp, (Outcome.next.inj h).symm⟩
  · simp [step, hp] at h

/-! ## hook を呼ぶ thread と、たどる thread -/

/--
探索（`ebpf_extension_hook_get_attached_client`）：何もしていないか、前の client を済ませた thread が先頭の
client を見つける。
-/
theorem step_lookup {t : Nat} (h : step cb hd s (.lookup t) = .next s') :
    (s.invokers[t]? = some .idle ∨ ∃ c, s.invokers[t]? = some (.passed c)) ∧
      s' = { s with invokers := (s.invokers.set t
        (if (ebpfExtensionHookGetAttachedClient hd s.mem).1 = 0 then .idle
          else .found (ebpfExtensionHookGetAttachedClient hd s.mem).1)) } := by
  cases ht : s.invokers[t]? with
  | none => simp [step, ht] at h
  | some pc =>
    cases pc with
    | idle | passed c =>
      simp only [step, ht] at h
      rw [ebpfExtensionHookGetAttachedClient_eq] at h
      exact ⟨by simp, (Outcome.next.inj h).symm⟩
    | found | entered | invoked => simp [step, ht] at h

/--
全部の client を呼ぶ hook の探索（`ebpf_extension_hook_get_next_attached_client`）：何もしていない thread は
`NULL` から、前の client `c` を済ませた thread は `c` から次を読む。メモリは変わらない。
-/
theorem step_lookupNext {t : Nat} (h : step cb hd s (.lookupNext t) = .next s') :
    ∃ c, (s.invokers[t]? = some .idle ∧ c = 0 ∨ s.invokers[t]? = some (.passed c)) ∧
      s' = { s with invokers := (s.invokers.set t
        (if (ebpfExtensionHookGetNextAttachedClient hd c s.mem).1 = 0 then .idle
          else .found (ebpfExtensionHookGetNextAttachedClient hd c s.mem).1)) } := by
  cases ht : s.invokers[t]? with
  | none => simp [step, ht] at h
  | some pc =>
    cases pc with
    | idle =>
      simp only [step, ht] at h
      rw [ebpfExtensionHookGetNextAttachedClient_eq] at h
      exact ⟨0, .inl ⟨rfl, rfl⟩, (Outcome.next.inj h).symm⟩
    | passed c =>
      by_cases hl : (s.mem.pool c).isLive = true
      · simp only [step, ht, hl, Bool.not_true, Bool.false_eq_true, if_false] at h
        rw [ebpfExtensionHookGetNextAttachedClient_eq] at h
        exact ⟨c, .inr rfl, (Outcome.next.inj h).symm⟩
      · simp [step, ht, hl] at h
    | found | entered | invoked => simp [step, ht] at h

/-- `ebpf_extension_hook_invoke_program`：rundown の参照を持ったまま program を呼ぶ。 -/
theorem step_invoke {t : Nat} (h : step cb hd s (.invoke t) = .next s') :
    ∃ c, s.invokers[t]? = some (.entered c) ∧ (s.mem.pool c).isLive = true ∧
      s' = { s with invokers := s.invokers.set t (.invoked c) } := by
  obtain ⟨c, ht⟩ : ∃ c, s.invokers[t]? = some (.entered c) := by
    cases ht : s.invokers[t]? with
    | none => simp [step, ht] at h
    | some pc => cases pc <;> simp [step, ht] at h ⊢
  by_cases hl : (s.mem.pool c).isLive = true
  · simp only [step, ht, hl, Bool.not_true, Bool.false_eq_true, if_false] at h
    exact ⟨c, ht, hl, (Outcome.next.inj h).symm⟩
  · simp [step, ht, hl] at h

/-- `ebpf_extension_hook_client_leave_rundown`：参照を一つ返して `c` を済ませる。 -/
theorem step_leave {t : Nat} (h : step cb hd s (.leave t) = .next s') :
    ∃ c, s.invokers[t]? = some (.invoked c) ∧ (s.mem.pool c).isLive = true ∧
      s' = { s with mem := ebpfExtensionHookClientLeaveRundown c s.mem, invokers := s.invokers.set t (.passed c) } := by
  obtain ⟨c, ht⟩ : ∃ c, s.invokers[t]? = some (.invoked c) := by
    cases ht : s.invokers[t]? with
    | none => simp [step, ht] at h
    | some pc => cases pc <;> simp [step, ht] at h ⊢
  by_cases hl : (s.mem.pool c).isLive = true
  · simp only [step, ht, hl, Bool.not_true, Bool.false_eq_true, if_false] at h
    exact ⟨c, ht, hl, (Outcome.next.inj h).symm⟩
  · simp [step, ht, hl] at h

/-- たどる thread は、`NULL` か前に受け取った client から次を読む。メモリは変わらない。 -/
theorem step_iterate {t : Nat} (h : step cb hd s (.iterate t) = .next s') :
    ∃ c, (s.iterators[t]? = some .start ∧ c = 0 ∨ s.iterators[t]? = some (.cursor c)) ∧
      s' = { s with iterators := (s.iterators.set t
        (if (ebpfExtensionHookGetNextAttachedClient hd c s.mem).1 = 0 then .done
          else .cursor (ebpfExtensionHookGetNextAttachedClient hd c s.mem).1)) } := by
  cases hit : s.iterators[t]? with
  | none => simp [step, hit] at h
  | some pc =>
    cases pc with
    | start =>
      simp only [step, hit] at h
      rw [ebpfExtensionHookGetNextAttachedClient_eq] at h
      exact ⟨0, .inl ⟨rfl, rfl⟩, (Outcome.next.inj h).symm⟩
    | cursor c =>
      by_cases hl : (s.mem.pool c).isLive = true
      · simp only [step, hit, hl, Bool.not_true, Bool.false_eq_true, if_false] at h
        rw [ebpfExtensionHookGetNextAttachedClient_eq] at h
        exact ⟨c, .inr rfl, (Outcome.next.inj h).symm⟩
      · simp [step, hit, hl] at h
    | done => simp [step, hit] at h

/-! ## 前に受け取った client を読む step -/

/-- 見つけた client に入る step が解放したブロックに触れるのは、その client のブロックが生きていないときだけ。 -/
theorem step_enter_eq_useAfterFree {t c : Nat} (ht : s.invokers[t]? = some (.found c)) :
    step cb hd s (.enter t) = .useAfterFree ↔ (s.mem.pool c).isLive = false := by
  cases hl : (s.mem.pool c).isLive <;> simp [step, ht, hl]

/-- 前に受け取った client から次をたどる step が解放したブロックに触れるのは、その client のブロックが生きていないときだけ。 -/
theorem step_iterate_eq_useAfterFree {t c : Nat} (ht : s.iterators[t]? = some (.cursor c)) :
    step cb hd s (.iterate t) = .useAfterFree ↔ (s.mem.pool c).isLive = false := by
  cases hl : (s.mem.pool c).isLive <;> simp [step, ht, hl]

/-- たどる thread は、`NULL` からか、ブロックが生きている前の client から次を読んで進む。 -/
theorem step_iterate_of_live {t c : Nat} (ht : s.iterators[t]? = some .start ∧ c = 0 ∨
      s.iterators[t]? = some (.cursor c) ∧ (s.mem.pool c).isLive = true) :
    step cb hd s (.iterate t) = .next { s with iterators := (s.iterators.set t
      (if (ebpfExtensionHookGetNextAttachedClient hd c s.mem).1 = 0 then .done
        else .cursor (ebpfExtensionHookGetNextAttachedClient hd c s.mem).1)) } := by
  rcases ht with ⟨ht, rfl⟩ | ⟨ht, hl⟩
  · simp only [step, ht]
    rw [ebpfExtensionHookGetNextAttachedClient_eq]
  · simp only [step, ht, hl, Bool.not_true, Bool.false_eq_true, if_false]
    rw [ebpfExtensionHookGetNextAttachedClient_eq]

end EbpfExt
