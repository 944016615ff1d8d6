import EbpfExt.Properties.CheckAttachParameter

/-!
# attach の結果

`_ebpf_extension_hook_provider_attach_client` は `attach_callback` の前に五つに分かれる。
引数が `NULL`、record の割り当ての失敗、dispatch table が `NULL`、work item の割り当ての失敗、
そして `attach_callback` まで進む場合。それぞれの後のメモリを閉じた形で書き、そこから次を示す。

* `Unwound` — 失敗の後：割り当てたものはちょうど一度ずつ解放され、前からあったものは変わらない
* `ebpfExtensionHookProviderAttachClient_failure` — 失敗を返すときは `Unwound`。出力の引数は、
  `NULL` の確認を過ぎていれば `NULL`、その確認で止まれば書かれない
* `ebpfExtensionHookProviderAttachClient_success` — 成功すれば新しい client がリストの最後につく
* `ebpfExtensionHookProviderAttachClient_isSome` — 正しいリストの上では `FatalListEntryError` にならない
-/

namespace EbpfExt

/-- `NULL` の確認に落ちる引数：出力の引数のどちらか、または provider が `NULL`。 -/
def NullArgs (args : AttachClientArgs) : Prop :=
  args.providerBindingContext = none ∨ args.providerDispatch = none ∨ args.providerContext = 0

instance (args : AttachClientArgs) : Decidable (NullArgs args) := inferInstanceAs (Decidable (_ ∨ _))

/-- `memset` の後に引数の値を入れた record。 -/
def initialRecord (args : AttachClientArgs) : HookClient :=
  { HookClient.zero with
    nmrBindingHandle := args.nmrBindingHandle, clientModuleId := args.clientModuleId,
    clientBindingContext := args.clientBindingContext, clientData := args.clientData }

/-- さらに dispatch table の関数と provider を入れ、work item `w` を持たせた record。 -/
def dispatchedRecord (args : AttachClientArgs) (t : ProgramDispatchTable) (w : Nat) : HookClient :=
  { initialRecord args with
    invokeProgram := t.ebpfProgramInvokeFunction, providerContext := args.providerContext,
    detachWorkItem := w }

namespace Memory

/-- 新しいアドレス `lastAddr + 1` に client record `c` を置き、その `link` を 0 にしたメモリ。 -/
def withNewClient (m : Memory) (c : HookClient) : Memory :=
  { m with lastAddr := m.lastAddr + 1,
           pool := Function.update m.pool (m.lastAddr + 1) (.live (.client c)),
           links := Function.update m.links (m.lastAddr + 1) ⟨0, 0⟩ }

variable {m : Memory} {c : HookClient} {f : HookClient → HookClient}

@[simp] theorem withNewClient_lastAddr : (m.withNewClient c).lastAddr = m.lastAddr + 1 := rfl
@[simp] theorem withNewClient_lastWorkItem : (m.withNewClient c).lastWorkItem = m.lastWorkItem := rfl
@[simp] theorem withNewClient_workItems : (m.withNewClient c).workItems = m.workItems := rfl
@[simp] theorem withNewClient_workItemFrees : (m.withNewClient c).workItemFrees = m.workItemFrees := rfl
@[simp] theorem withNewClient_poolFrees : (m.withNewClient c).poolFrees = m.poolFrees := rfl
@[simp] theorem withNewClient_lock : (m.withNewClient c).lock = m.lock := rfl

@[simp] theorem updateClient_withNewClient :
    (m.withNewClient c).updateClient (m.lastAddr + 1) f = m.withNewClient (f c) := by
  simp only [updateClient, withNewClient, Function.update_same, Block.mapClient, Function.update_idem]

end Memory

theorem initHookClient_allocate {m : Memory} {args : AttachClientArgs} :
    initHookClient args (m.lastAddr + 1) (m.allocate (.client HookClient.zero)) =
      m.withNewClient (initialRecord args) :=
  Memory.updateClient_withNewClient (m := m) (c := HookClient.zero)

/-! ## `attach_callback` の前 -/

section Prologue

variable {env : AttachEnv} {args : AttachClientArgs} {m : Memory}

/-- `NullArgs` は C の `if` の条件そのもの。 -/
theorem nullArgs_iff : NullArgs args ↔
    (args.providerBindingContext.isNone = true ∨ args.providerDispatch.isNone = true ∨
      args.providerContext = 0) := by
  simp [NullArgs]

theorem attachClientPrologue_of_nullArgs (h : NullArgs args) :
    attachClientPrologue env args m =
      .exit statusInvalidParameter 0 m args.providerBindingContext args.providerDispatch := by
  simp only [attachClientPrologue, nullArgs_iff.mp h, if_true]

theorem attachClientPrologue_of_alloc_fail (h : ¬NullArgs args) (ha : env.hookClientOk = false) :
    attachClientPrologue env args m = .exit statusInsufficientResources 0 m (some 0) (some 0) := by
  rw [nullArgs_iff] at h
  simp only [attachClientPrologue, h, if_false, ha, exAllocatePool_false, if_true]

theorem attachClientPrologue_of_dispatch_null (h : ¬NullArgs args) (ha : env.hookClientOk = true)
    (hd : args.clientDispatch = none) :
    attachClientPrologue env args m =
      .exit statusInvalidParameter (m.lastAddr + 1) (m.withNewClient (initialRecord args)) (some 0) (some 0) := by
  rw [nullArgs_iff] at h
  simp only [attachClientPrologue, h, if_false, ha, exAllocatePool_true, Nat.add_one_ne_zero, hd,
    initHookClient_allocate]

/-- record を置いて `invoke_program` と `provider_context` を入れるところまで（dispatch table がある場合）。 -/
theorem attachClientPrologue_of_dispatch {t : ProgramDispatchTable} (h : ¬NullArgs args)
    (ha : env.hookClientOk = true) (hd : args.clientDispatch = some t) :
    attachClientPrologue env args m =
      let (status, m') := ebpfExtAttachInitRundown env.workItemOk (m.lastAddr + 1)
        (m.withNewClient (dispatchedRecord args t 0))
      if ntSuccess status then .callback (m.lastAddr + 1) m' (some 0) (some 0)
      else .exit status (m.lastAddr + 1) m' (some 0) (some 0) := by
  rw [nullArgs_iff] at h
  simp only [attachClientPrologue, h, if_false]
  simp only [ha, exAllocatePool_true, Nat.add_one_ne_zero, if_false, hd, initHookClient_allocate]
  simp only [Memory.updateClient_withNewClient]
  rfl

theorem attachClientPrologue_of_workItem_fail {t : ProgramDispatchTable} (h : ¬NullArgs args)
    (ha : env.hookClientOk = true) (hd : args.clientDispatch = some t) (hw : env.workItemOk = false) :
    attachClientPrologue env args m =
      .exit statusInsufficientResources (m.lastAddr + 1) (m.withNewClient (dispatchedRecord args t 0))
        (some 0) (some 0) := by
  rw [attachClientPrologue_of_dispatch h ha hd]
  simp only [ebpfExtAttachInitRundown, hw, ioAllocateWorkItem_false]
  simp only [if_true, Memory.updateClient_withNewClient]
  simp only [ntSuccess_statusInsufficientResources, Bool.false_eq_true, if_false]
  simp only [dispatchedRecord]

theorem attachClientPrologue_of_callback {t : ProgramDispatchTable} (h : ¬NullArgs args)
    (ha : env.hookClientOk = true) (hd : args.clientDispatch = some t) (hw : env.workItemOk = true) :
    attachClientPrologue env args m =
      .callback (m.lastAddr + 1)
        (m.withNewClient (dispatchedRecord args t (m.lastWorkItem + 1))).allocateWorkItem (some 0) (some 0) := by
  rw [attachClientPrologue_of_dispatch h ha hd]
  simp only [ebpfExtAttachInitRundown, hw, ioAllocateWorkItem_true]
  simp only [Memory.updateClient_allocateWorkItem, Memory.updateClient_withNewClient]
  simp only [Memory.withNewClient_lastWorkItem, Nat.add_one_ne_zero, if_false, ntSuccess_statusSuccess,
    if_true]
  simp only [dispatchedRecord, initialRecord, HookClient.zero]

end Prologue

/-! ## 失敗の後片付け -/

/--
失敗した attach の前後のメモリ。割り当てたもの（`lastAddr` より後のアドレスと `lastWorkItem` より後の
work item）はどれもちょうど一度解放され、前からあったもの（リストの entry を含む）は変わらない。
-/
structure Unwound (m m' : Memory) : Prop where
  links : ∀ x ≤ m.lastAddr, m'.links x = m.links x
  pool : ∀ x ≤ m.lastAddr, m'.pool x = m.pool x
  poolFrees : ∀ x ≤ m.lastAddr, m'.poolFrees x = m.poolFrees x
  workItems : ∀ w ≤ m.lastWorkItem, m'.workItems w = m.workItems w
  workItemFrees : ∀ w ≤ m.lastWorkItem, m'.workItemFrees w = m.workItemFrees w
  freedRecords : ∀ x, m.lastAddr < x → x ≤ m'.lastAddr →
    m'.poolFrees x = m.poolFrees x + 1 ∧ ∃ r, m'.pool x = .freed r
  freedWorkItems : ∀ w, m.lastWorkItem < w → w ≤ m'.lastWorkItem →
    m'.workItemFrees w = m.workItemFrees w + 1 ∧ m'.workItems w = .freed
  lock : m'.lock = m.lock
  lastAddr_le : m.lastAddr ≤ m'.lastAddr

theorem Unwound.refl (m : Memory) : Unwound m m where
  links _ _ := rfl
  pool _ _ := rfl
  poolFrees _ _ := rfl
  workItems _ _ := rfl
  workItemFrees _ _ := rfl
  freedRecords _ h h' := absurd h (by omega)
  freedWorkItems _ h h' := absurd h (by omega)
  lock := rfl
  lastAddr_le := le_rfl

/-- 失敗の後もリストは前のまま。 -/
theorem Unwound.clientList {m m' : Memory} (h : Unwound m m') {hd : Nat} {l : List Nat}
    (hl : ClientList m hd l) : ClientList m' hd l :=
  hl.frame h.links h.lastAddr_le

section Cleanup

variable {m : Memory} {c : HookClient}

@[simp] theorem Memory.clientAt_withNewClient : (m.withNewClient c).clientAt (m.lastAddr + 1) = c := by
  simp [Memory.clientAt, Memory.withNewClient]

@[simp] theorem Memory.clientAt_allocateWorkItem {a : Nat} : m.allocateWorkItem.clientAt a = m.clientAt a :=
  rfl

@[simp] theorem ebpfExtensionHookClientCleanup_null : ebpfExtensionHookClientCleanup 0 m = m := rfl

@[simp] theorem Memory.withNewClient_links_old {x : Nat} (hx : x ≤ m.lastAddr) :
    (m.withNewClient c).links x = m.links x := by
  simp [Memory.withNewClient, Function.update_apply, show x ≠ m.lastAddr + 1 by omega]

@[simp] theorem Memory.withNewClient_pool_old {x : Nat} (hx : x ≤ m.lastAddr) :
    (m.withNewClient c).pool x = m.pool x := by
  simp [Memory.withNewClient, Function.update_apply, show x ≠ m.lastAddr + 1 by omega]

theorem Memory.withNewClient_pool_ne {x : Nat} (hx : x ≠ m.lastAddr + 1) :
    (m.withNewClient c).pool x = m.pool x := by
  simp [Memory.withNewClient, Function.update_apply, hx]

@[simp] theorem Memory.withNewClient_pool_new :
    (m.withNewClient c).pool (m.lastAddr + 1) = .live (.client c) := by
  simp [Memory.withNewClient]

/-- work item を持たない新しい record を片付ける。 -/
theorem unwound_cleanup_withNewClient (hc : c.detachWorkItem = 0) :
    Unwound m (ebpfExtensionHookClientCleanup (m.lastAddr + 1) (m.withNewClient c)) := by
  simp only [ebpfExtensionHookClientCleanup, Nat.add_one_ne_zero, if_false, Memory.clientAt_withNewClient,
    hc, ne_eq, not_true_eq_false]
  refine ⟨fun x hx => ?_, fun x hx => ?_, fun x hx => ?_, fun _ _ => rfl, fun _ _ => rfl,
    fun x hx hx' => ?_, fun w hw hw' => by simp at hw'; omega, rfl, by simp⟩
  · simp [hx]
  · simp [hx, show x ≠ m.lastAddr + 1 by omega]
  · simp [show x ≠ m.lastAddr + 1 by omega]
  · obtain rfl : x = m.lastAddr + 1 := by simp at hx'; omega
    simp [Block.free]

/-- 新しい work item を持つ新しい record を片付ける。 -/
theorem unwound_cleanup_withNewClient_workItem (hc : c.detachWorkItem = m.lastWorkItem + 1) :
    Unwound m (ebpfExtensionHookClientCleanup (m.lastAddr + 1) (m.withNewClient c).allocateWorkItem) := by
  simp only [ebpfExtensionHookClientCleanup, Nat.add_one_ne_zero, if_false, Memory.clientAt_allocateWorkItem,
    Memory.clientAt_withNewClient, hc, ne_eq, not_false_eq_true, if_true]
  refine ⟨fun x hx => ?_, fun x hx => ?_, fun x hx => ?_, fun w hw => ?_, fun w hw => ?_,
    fun x hx hx' => ?_, fun w hw hw' => ?_, rfl, by simp [Memory.allocateWorkItem]⟩
  · simp [Memory.allocateWorkItem, hx]
  · simp [Memory.allocateWorkItem, hx, show x ≠ m.lastAddr + 1 by omega]
  · simp [Memory.allocateWorkItem, show x ≠ m.lastAddr + 1 by omega]
  · simp [Memory.allocateWorkItem, Function.update_apply, show w ≠ m.lastWorkItem + 1 by omega]
  · simp [Memory.allocateWorkItem, show w ≠ m.lastWorkItem + 1 by omega]
  · obtain rfl : x = m.lastAddr + 1 := by simp [Memory.allocateWorkItem] at hx'; omega
    simp [Memory.allocateWorkItem, Block.free]
  · obtain rfl : w = m.lastWorkItem + 1 := by simp [Memory.allocateWorkItem] at hw'; omega
    simp [Memory.allocateWorkItem]

end Cleanup

/-! ## 三つの行き先 -/

/--
`attach_callback` の前の行き先は三つ。`NULL` の確認で止まる、途中で失敗して `Exit:` に飛ぶ
（そこで片付ければ `Unwound`）、`attach_callback` まで進む。
-/
theorem attachClientPrologue_cases (env : AttachEnv) (args : AttachClientArgs) (m : Memory) :
    (NullArgs args ∧ attachClientPrologue env args m =
      .exit statusInvalidParameter 0 m args.providerBindingContext args.providerDispatch) ∨
    (¬NullArgs args ∧ ∃ st a m', attachClientPrologue env args m = .exit st a m' (some 0) (some 0) ∧
      ntSuccess st = false ∧ Unwound m (ebpfExtensionHookClientCleanup a m')) ∨
    (¬NullArgs args ∧ ∃ t, args.clientDispatch = some t ∧ attachClientPrologue env args m =
      .callback (m.lastAddr + 1) (m.withNewClient (dispatchedRecord args t (m.lastWorkItem + 1))).allocateWorkItem
        (some 0) (some 0)) := by
  by_cases h : NullArgs args
  · exact .inl ⟨h, attachClientPrologue_of_nullArgs h⟩
  right
  cases ha : env.hookClientOk
  · exact .inl ⟨h, _, _, _, attachClientPrologue_of_alloc_fail h ha, rfl, Unwound.refl m⟩
  cases hd : args.clientDispatch with
  | none =>
    exact .inl ⟨h, _, _, _, attachClientPrologue_of_dispatch_null h ha hd, rfl,
      unwound_cleanup_withNewClient rfl⟩
  | some t =>
    cases hw : env.workItemOk
    · exact .inl ⟨h, _, _, _, attachClientPrologue_of_workItem_fail h ha hd hw, rfl,
        unwound_cleanup_withNewClient rfl⟩
    · exact .inr ⟨h, t, rfl, attachClientPrologue_of_callback h ha hd hw⟩

/-! ## 失敗 -/

/--
attach が失敗を返すとき、割り当てたものは解放されていて前からあったものは変わらない（`Unwound`）。
出力の引数は、`NULL` の確認を過ぎていれば `NULL` に、その確認で止まったなら書かれないまま。
-/
theorem ebpfExtensionHookProviderAttachClient_unwound {cb : AttachCallback} {env : AttachEnv}
    {args : AttachClientArgs} {m : Memory} {r : AttachClientResult}
    (h : ebpfExtensionHookProviderAttachClient cb env args m = some r) (hs : ntSuccess r.status = false) :
    Unwound m r.mem ∧ if NullArgs args then r.status = statusInvalidParameter ∧
      r.providerBindingContext = args.providerBindingContext ∧ r.providerDispatch = args.providerDispatch
      else r.providerBindingContext = some 0 ∧ r.providerDispatch = some 0 := by
  unfold ebpfExtensionHookProviderAttachClient at h
  rcases attachClientPrologue_cases env args m with ⟨hn, hp⟩ | ⟨hn, st, a, m', hp, hst, hu⟩ | ⟨hn, t, -, hp⟩
  · simp only [hp] at h
    cases h
    simp [attachClientExit, hn, Unwound.refl]
  · simp only [hp] at h
    cases h
    simp [attachClientExit, hst, hn, hu]
  · simp only [hp] at h
    split at h
    · obtain ⟨m'', -, rfl⟩ := Option.map_eq_some'.mp h
      simp [attachClientExit] at hs
    · cases h
      simp [attachClientExit, hn, unwound_cleanup_withNewClient_workItem, dispatchedRecord]

/--
attach が失敗を返すとき、割り当てたもの（client record と、割り当てていればその work item）はどれも
返る前にちょうど一度解放され、前からあったものは変わらない。だからどの provider のリストも呼ぶ前のまま
で、client がつながるのは成功の道だけ。出力の引数は、`NULL` の確認を過ぎていれば `NULL` に、
その確認で止まったなら（`STATUS_INVALID_PARAMETER`）書かれないまま。
-/
theorem ebpfExtensionHookProviderAttachClient_failure {cb : AttachCallback} {env : AttachEnv}
    {args : AttachClientArgs} {m : Memory} {r : AttachClientResult}
    (h : ebpfExtensionHookProviderAttachClient cb env args m = some r) (hs : ntSuccess r.status = false) :
    Unwound m r.mem ∧ (∀ hd l, ClientList m hd l → ClientList r.mem hd l) ∧
      if NullArgs args then r.status = statusInvalidParameter ∧
        r.providerBindingContext = args.providerBindingContext ∧ r.providerDispatch = args.providerDispatch
      else r.providerBindingContext = some 0 ∧ r.providerDispatch = some 0 :=
  have hu := ebpfExtensionHookProviderAttachClient_unwound h hs
  ⟨hu.1, fun _ _ hl => hu.1.clientList hl, hu.2⟩

theorem attachClient_callbackDenied_unwound :
    let args : AttachClientArgs := ⟨0, 1, 0, ⟨some [1, 2, 3]⟩, 0, some ⟨0⟩, some 7, some 7⟩
    ∃ r, ebpfExtensionHookProviderAttachClient (fun _ _ => .accessDenied) ⟨true, true⟩ args Memory.empty = some r ∧
      ntSuccess r.status = false ∧
      (Unwound Memory.empty r.mem ∧ (∀ hd l, ClientList Memory.empty hd l → ClientList r.mem hd l) ∧
        if NullArgs args then r.status = statusInvalidParameter ∧
          r.providerBindingContext = args.providerBindingContext ∧ r.providerDispatch = args.providerDispatch
        else r.providerBindingContext = some 0 ∧ r.providerDispatch = some 0) :=
  ⟨_, rfl, rfl, @ebpfExtensionHookProviderAttachClient_failure (fun _ _ => .accessDenied) ⟨true, true⟩ _ _ _
    rfl rfl⟩

/-- `NULL` の確認で止まると、書ける出力の引数でも `NULL` にはならない（`provider_dispatch` だけが `NULL` の例）。 -/
theorem attachClient_nullArgs_output_unwritten :
    let args : AttachClientArgs := ⟨0, 1, 0, ⟨none⟩, 0, some ⟨0⟩, some 7, none⟩
    ∃ r, ebpfExtensionHookProviderAttachClient (fun _ _ => .success) ⟨true, true⟩ args Memory.empty = some r ∧
      ntSuccess r.status = false ∧ args.providerBindingContext.isSome ∧ r.providerBindingContext ≠ some 0 :=
  ⟨_, rfl, rfl, rfl, by decide⟩

/-! ## 成功 -/

/-- `attach_callback` が呼ばれる時のメモリでも、リストは前のまま（新しい record はまだつながっていない）。 -/
theorem ClientList.callbackMemory {m : Memory} {hd : Nat} {l : List Nat} {c : HookClient}
    (hl : ClientList m hd l) : ClientList (m.withNewClient c).allocateWorkItem hd l :=
  hl.frame (fun x hx => @Memory.withNewClient_links_old m c x hx) (by simp [Memory.allocateWorkItem])

theorem attachClientInsert_eq {M : Memory} {hd a : Nat} :
    attachClientInsert hd a M = (insertTailList M.links hd a).map fun links =>
      { M with links, lock := exReleaseSpinLockExclusive (exAcquireSpinLockExclusive M.lock) } := rfl

/-- リストにない record は、リストの最後につなげる（`FatalListEntryError` にはならない）。 -/
theorem attachClientInsert_clientList {M : Memory} {hd : Nat} {l : List Nat} (hl : ClientList M hd l)
    {a : Nat} (ha : a ∉ hd :: l) (ha0 : 0 < a) (ha' : a ≤ M.lastAddr) :
    ∃ M', attachClientInsert hd a M = some M' ∧ ClientList M' hd (l ++ [a]) ∧ M'.pool = M.pool ∧
      M'.lastAddr = M.lastAddr ∧ M'.workItems = M.workItems ∧ M'.poolFrees = M.poolFrees ∧
      M'.workItemFrees = M.workItemFrees ∧ M'.lastWorkItem = M.lastWorkItem := by
  obtain ⟨links, hins, hrep⟩ := insertTailList_listRep hl.1 ha
  refine ⟨{ M with links, lock := exReleaseSpinLockExclusive (exAcquireSpinLockExclusive M.lock) },
    by rw [attachClientInsert_eq, hins]; rfl, ⟨hrep, fun x hx => ?_⟩, rfl, rfl, rfl, rfl, rfl, rfl⟩
  rcases List.mem_cons.mp hx with rfl | hx
  · exact hl.2 x (List.mem_cons_self x l)
  · rcases List.mem_append.mp hx with hx | hx
    · exact hl.2 x (List.mem_cons_of_mem hd hx)
    · obtain rfl : x = a := List.mem_singleton.mp hx
      exact ⟨ha0, ha'⟩

/-- `Exit:` の成功の道。 -/
theorem attachClientExit_of_ntSuccess {st : NtStatus} {a : Nat} {m : Memory} {pbc pd : Option Nat}
    (h : ntSuccess st = true) : attachClientExit st a m pbc pd = ⟨st, m, pbc.map fun _ => a, pd⟩ := by
  simp only [attachClientExit, h, if_true]

@[simp] theorem attachClientExit_status {st : NtStatus} {a : Nat} {m : Memory} {pbc pd : Option Nat} :
    (attachClientExit st a m pbc pd).status = st := by
  unfold attachClientExit; split <;> rfl

@[simp] theorem attachClientExit_mem_of_ntSuccess {st : NtStatus} {a : Nat} {m : Memory} {pbc pd : Option Nat}
    (h : ntSuccess st = true) : (attachClientExit st a m pbc pd).mem = m := by
  simp only [attachClientExit, h, if_true]

@[simp] theorem attachClientExit_mem_of_not {st : NtStatus} {a : Nat} {m : Memory} {pbc pd : Option Nat}
    (h : ntSuccess st = false) : (attachClientExit st a m pbc pd).mem = ebpfExtensionHookClientCleanup a m := by
  simp only [attachClientExit, h, Bool.false_eq_true, if_false]

/-- 新しい record のアドレスは、リストのどの entry とも違う。 -/
theorem ClientList.new_not_mem {m : Memory} {hd : Nat} {l : List Nat} (hl : ClientList m hd l) :
    m.lastAddr + 1 ∉ hd :: l :=
  fun h => absurd (hl.2 _ h).2 (Nat.not_succ_le_self _)

/--
attach が成功を返すなら、dispatch table があり、`attach_callback` は新しい record を置いたメモリを見て
成功を返していて、その record はリストの最後につながり、`*provider_binding_context` はそのアドレス。
-/
theorem ebpfExtensionHookProviderAttachClient_success {cb : AttachCallback} {env : AttachEnv}
    {args : AttachClientArgs} {m : Memory} {r : AttachClientResult} {hd : Nat} {l : List Nat}
    (hl : ClientList m hd l) (hpc : args.providerContext = hd)
    (h : ebpfExtensionHookProviderAttachClient cb env args m = some r) (hs : ntSuccess r.status = true) :
    ∃ t, args.clientDispatch = some t ∧
      cb (m.withNewClient (dispatchedRecord args t (m.lastWorkItem + 1))).allocateWorkItem (m.lastAddr + 1) =
        .success ∧
      r.status = statusSuccess ∧ r.providerBindingContext = some (m.lastAddr + 1) ∧
      ClientList r.mem hd (l ++ [m.lastAddr + 1]) ∧
      r.mem.pool = (m.withNewClient (dispatchedRecord args t (m.lastWorkItem + 1))).pool := by
  unfold ebpfExtensionHookProviderAttachClient at h
  rcases attachClientPrologue_cases env args m with ⟨-, hp⟩ | ⟨-, st, a, m', hp, hst, -⟩ | ⟨-, t, hd', hp⟩
  · simp only [hp, Option.some.injEq] at h
    subst h
    simp only [attachClientExit_status, ntSuccess_statusInvalidParameter] at hs
    exact absurd hs Bool.false_ne_true
  · simp only [hp, Option.some.injEq] at h
    subst h
    simp only [attachClientExit_status, hst] at hs
    exact absurd hs Bool.false_ne_true
  · simp only [hp] at h
    split at h
    · rename_i hcb
      obtain ⟨M', hins, hrep, hpool, -⟩ :=
        attachClientInsert_clientList hl.callbackMemory hl.new_not_mem (Nat.succ_pos _)
        (by simp [Memory.allocateWorkItem])
      rw [hpc, hins, Option.map_some', Option.some.injEq,
        attachClientExit_of_ntSuccess ntSuccess_statusSuccess] at h
      subst h
      exact ⟨t, hd', hcb, rfl, rfl, hrep, hpool⟩
    · simp only [Option.some.injEq] at h
      subst h
      simp only [attachClientExit_status, ntSuccess_statusAccessDenied] at hs
      exact absurd hs Bool.false_ne_true

/-- 正しいリストの上では、attach が `FatalListEntryError` で止まることはない。 -/
theorem ebpfExtensionHookProviderAttachClient_isSome {cb : AttachCallback} {env : AttachEnv}
    {args : AttachClientArgs} {m : Memory} {hd : Nat} {l : List Nat}
    (hl : ClientList m hd l) (hpc : args.providerContext = hd) :
    (ebpfExtensionHookProviderAttachClient cb env args m).isSome := by
  unfold ebpfExtensionHookProviderAttachClient
  rcases attachClientPrologue_cases env args m with ⟨-, hp⟩ | ⟨-, st, a, m', hp, -, -⟩ | ⟨-, t, -, hp⟩
  · simp only [hp, Option.isSome_some]
  · simp only [hp, Option.isSome_some]
  · simp only [hp]
    split
    · obtain ⟨M', hins, -⟩ := attachClientInsert_clientList
        (@ClientList.callbackMemory m hd l (dispatchedRecord args t (m.lastWorkItem + 1)) hl) hl.new_not_mem
        (Nat.succ_pos _) (by simp [Memory.allocateWorkItem])
      simp only [hpc, hins, Option.map_some', Option.isSome_some]
    · simp only [Option.isSome_some]

end EbpfExt
