import EbpfExt.Memory

/-!
# `ebpf_ext_hook_provider.c`

hook provider の関数を C の順のまま書く。

* 関数ポインタ（hook 固有の `attach_callback`、client の `invoke_program`）は引数で受ける
* `goto Exit` は `Exit:` の処理を一つの関数にして、飛ぶところからそれを呼ぶ
* lock は `Memory.lock` の取得と解放として書く。lock の中の処理は一度に起きる
* 外が決めること（割り当てが成功するか、`NmrRegisterProvider` の結果）は引数で受ける
* 読めないアドレス（`NULL` など）を読むか、`LIST_ENTRY` の検査に落ちると止まる。それを `none` とする

`_ebpf_extension_hook_provider_attach_client` は `attach_callback` の前後で、
`_ebpf_extension_detach_client_completion` は rundown の待ちの前後で、lock を持たずに他の thread と
交互に進む。そこで区切りごとの関数に分け、全体はその合成とする。区切りは `Concurrent` の step が使う。
-/

namespace EbpfExt

/-! ## rundown -/

/--
`_ebpf_ext_attach_init_rundown`。コメントは「rundown を初期化し、新しい参照を止める」と言うが、
`ExInitializeRundownProtection` の後の rundown は開いていて、`ebpf_extension_hook_client_enter_rundown` は成功する。
-/
def ebpfExtAttachInitRundown (workItemOk : Bool) (hookClient : Nat) (m : Memory) :
    NtStatus × Memory :=
  let (w, m) := ioAllocateWorkItem workItemOk m
  let m := m.updateClient hookClient fun c => { c with detachWorkItem := w }
  if w = 0 then (statusInsufficientResources, m)
  else
    (statusSuccess, m.updateClient hookClient fun c =>
      { c with rundown := { protection := exInitializeRundownProtection, rundownOccurred := false } })

/-- `ExWaitForRundownProtectionRelease` の入口：これより後の `ExAcquireRundownProtection` は失敗する。 -/
def waitForRundownBegin (hookClient : Nat) (m : Memory) : Memory :=
  m.updateClient hookClient fun c =>
    { c with rundown := { c.rundown with protection := { c.rundown.protection with active := true } } }

/--
`ExWaitForRundownProtectionRelease` の出口と `rundown->rundown_occurred = TRUE`。
参照が残っていればまだ戻らない（`none`）。
-/
def waitForRundownEnd (hookClient : Nat) (m : Memory) : Option Memory :=
  if (m.clientAt hookClient).rundown.protection.count = 0 then
    some (m.updateClient hookClient fun c => { c with rundown := { c.rundown with rundownOccurred := true } })
  else none

/-- `_ebpf_ext_attach_wait_for_rundown`。他に thread がなければ、参照が残っている限り戻らない。 -/
def ebpfExtAttachWaitForRundown (hookClient : Nat) (m : Memory) : Option Memory :=
  waitForRundownEnd hookClient (waitForRundownBegin hookClient m)

/--
`_ebpf_extension_detach_client_completion`。rundown を待ち、work item を解放する。
最後の `NmrProviderDetachClientComplete` は NMR への知らせで、メモリは変えない。
-/
def ebpfExtensionDetachClientCompletion (hookClient : Nat) (m : Memory) : Option Memory :=
  let workItem := (m.clientAt hookClient).detachWorkItem
  (ebpfExtAttachWaitForRundown hookClient m).map (ioFreeWorkItem workItem)

/-- `ebpf_extension_hook_client_enter_rundown`。 -/
def ebpfExtensionHookClientEnterRundown (hookClient : Nat) (m : Memory) : Bool × Memory :=
  let (status, r) := exAcquireRundownProtection (m.clientAt hookClient).rundown.protection
  (status, m.updateClient hookClient fun c => { c with rundown := { c.rundown with protection := r } })

/-- `ebpf_extension_hook_client_leave_rundown`。 -/
def ebpfExtensionHookClientLeaveRundown (hookClient : Nat) (m : Memory) : Memory :=
  m.updateClient hookClient fun c =>
    { c with rundown := { c.rundown with protection := exReleaseRundownProtection c.rundown.protection } }

/-- `ebpf_extension_hook_invoke_program`。`invoke` は関数ポインタの値が指す関数。 -/
def ebpfExtensionHookInvokeProgram (invoke : Nat → Nat → Nat → EbpfResult × UInt32) (client : Nat)
    (context : Nat) (m : Memory) : EbpfResult × UInt32 :=
  let c := m.clientAt client
  invoke c.invokeProgram c.clientBindingContext context

/-! ## attach parameter の確認 -/

/-- client の attach parameter：`client_data->data`、それが `NULL` なら wildcard。 -/
def effectiveAttachParameter (wildCardAttachParameter : Bytes) (c : HookClient) : Bytes :=
  c.clientData.data.getD wildCardAttachParameter

/--
`ebpf_extension_hook_check_attach_parameter` の `while` ループ。`link` から `Flink` をたどり、
wildcard か同じ parameter の client に当たれば `EBPF_ACCESS_DENIED`。
C のループに上限はない。`fuel` はリストの長さより大きく取るので、使い切ることはない。
-/
def checkAttachParameterLoop (attachParameterSize : Nat) (attachParameter wildCardAttachParameter : Bytes)
    (m : Memory) (hd : Nat) : Nat → Nat → EbpfResult
  | 0, _ => .success
  | fuel + 1, link =>
    if link = hd then .success
    else
      let nextClientAttachParameter := effectiveAttachParameter wildCardAttachParameter (m.clientAt link)
      if memcmp wildCardAttachParameter nextClientAttachParameter attachParameterSize = 0 ∨
          memcmp attachParameter nextClientAttachParameter attachParameterSize = 0 then
        .accessDenied
      else
        checkAttachParameterLoop attachParameterSize attachParameter wildCardAttachParameter m hd fuel
          (m.links link).flink

/--
`ebpf_extension_hook_check_attach_parameter`。共有 lock の中でリストを見る。
`lock_held` はいつも `TRUE` なので、`Exit:` で必ず lock を放す。
-/
def ebpfExtensionHookCheckAttachParameter (attachParameterSize : Nat)
    (attachParameter wildCardAttachParameter : Bytes) (providerContext : Nat) (m : Memory) :
    EbpfResult × Memory :=
  let usingWildCardAttachParameter :=
    memcmp attachParameter wildCardAttachParameter attachParameterSize = 0
  let m := m.withLock exAcquireSpinLockShared
  let result :=
    if usingWildCardAttachParameter then
      if !isListEmpty m.links providerContext then .accessDenied else .success
    else
      checkAttachParameterLoop attachParameterSize attachParameter wildCardAttachParameter m providerContext
        m.lastAddr (m.links providerContext).flink
  (result, m.withLock exReleaseSpinLockShared)

/-! ## attach -/

/-- `_ebpf_extension_hook_client_cleanup`。 -/
def ebpfExtensionHookClientCleanup (hookClient : Nat) (m : Memory) : Memory :=
  if hookClient = 0 then m
  else
    let w := (m.clientAt hookClient).detachWorkItem
    let m := if w ≠ 0 then ioFreeWorkItem w m else m
    exFreePool hookClient m

/--
`_ebpf_extension_hook_provider_attach_client` の引数。
`client_registration_instance` からは `ModuleId->Guid` と `NpiSpecificCharacteristics` を読む。
出力の引数は指す先の中身で、`none` は `NULL` の pointer。
-/
structure AttachClientArgs where
  nmrBindingHandle : Nat
  providerContext : Nat
  clientModuleId : Nat
  clientData : ExtensionData
  clientBindingContext : Nat
  clientDispatch : Option ProgramDispatchTable
  providerBindingContext : Option Nat
  providerDispatch : Option Nat

/-- 外が決めること：client record と work item の割り当てが成功するか。 -/
structure AttachEnv where
  hookClientOk : Bool
  workItemOk : Bool

/-- 返す status、メモリ、出力の引数の中身。 -/
structure AttachClientResult where
  status : NtStatus
  mem : Memory
  providerBindingContext : Option Nat
  providerDispatch : Option Nat

/-- `attach_callback` を呼ぶところまで来たか、その前に `goto Exit` したか。 -/
inductive AttachStage
  | exit (status : NtStatus) (hookClient : Nat) (m : Memory) (pbc : Option Nat) (pd : Option Nat)
  | callback (hookClient : Nat) (m : Memory) (pbc : Option Nat) (pd : Option Nat)

/-- hook 固有の `attach_callback`。新しい client と、その時のメモリを見て決める。 -/
abbrev AttachCallback := Memory → Nat → EbpfResult

/-- `Exit:`。成功なら `*provider_binding_context = hook_client`、失敗なら `hook_client` を片付ける。 -/
def attachClientExit (status : NtStatus) (hookClient : Nat) (m : Memory) (pbc : Option Nat)
    (pd : Option Nat) : AttachClientResult :=
  if ntSuccess status then ⟨status, m, pbc.map fun _ => hookClient, pd⟩
  else ⟨status, ebpfExtensionHookClientCleanup hookClient m, pbc, pd⟩

/-- client record を作り、`memset` して引数の値を入れる。`memset` は `link` も 0 にする。 -/
def initHookClient (args : AttachClientArgs) (hookClient : Nat) (m : Memory) : Memory :=
  Memory.updateClient hookClient
    (fun _ => { HookClient.zero with
      nmrBindingHandle := args.nmrBindingHandle, clientModuleId := args.clientModuleId,
      clientBindingContext := args.clientBindingContext, clientData := args.clientData })
    { m with links := Function.update m.links hookClient ⟨0, 0⟩ }

/-- `_ebpf_extension_hook_provider_attach_client` の、`attach_callback` を呼ぶ前まで。 -/
def attachClientPrologue (env : AttachEnv) (args : AttachClientArgs) (m : Memory) : AttachStage :=
  if args.providerBindingContext.isNone ∨ args.providerDispatch.isNone ∨ args.providerContext = 0 then
    .exit statusInvalidParameter 0 m args.providerBindingContext args.providerDispatch
  else
    -- `*provider_binding_context = NULL; *provider_dispatch = NULL;`
    let pbc : Option Nat := some 0
    let pd : Option Nat := some 0
    let (hookClient, m) := exAllocatePool env.hookClientOk (.client HookClient.zero) m
    if hookClient = 0 then .exit statusInsufficientResources 0 m pbc pd
    else
      let m := initHookClient args hookClient m
      match args.clientDispatch with
      | none => .exit statusInvalidParameter hookClient m pbc pd
      | some clientDispatchTable =>
        let m := m.updateClient hookClient fun c =>
          { c with invokeProgram := clientDispatchTable.ebpfProgramInvokeFunction,
                   providerContext := args.providerContext }
        let (status, m) := ebpfExtAttachInitRundown env.workItemOk hookClient m
        if ntSuccess status then .callback hookClient m pbc pd
        else .exit status hookClient m pbc pd

/-- `attach_callback` が成功した後：排他 lock の中で `InsertTailList`。 -/
def attachClientInsert (providerContext hookClient : Nat) (m : Memory) : Option Memory :=
  let m := m.withLock exAcquireSpinLockExclusive
  (insertTailList m.links providerContext hookClient).map fun links =>
    Memory.withLock exReleaseSpinLockExclusive { m with links }

/-- `_ebpf_extension_hook_provider_attach_client`。 -/
def ebpfExtensionHookProviderAttachClient (attachCallback : AttachCallback) (env : AttachEnv)
    (args : AttachClientArgs) (m : Memory) : Option AttachClientResult :=
  match attachClientPrologue env args m with
  | .exit status hookClient m pbc pd => some (attachClientExit status hookClient m pbc pd)
  | .callback hookClient m pbc pd =>
    if attachCallback m hookClient = .success then
      (attachClientInsert args.providerContext hookClient m).map fun m =>
        attachClientExit statusSuccess hookClient m pbc pd
    else some (attachClientExit statusAccessDenied hookClient m pbc pd)

/-! ## detach -/

/--
`_ebpf_extension_hook_provider_detach_client`。

`local_client_context->provider_context` を `NULL` の確認より前に読むので、`NULL` を渡されると
確認に着く前に止まる。hook 固有の `detach_callback` は provider のメモリに触れない。
-/
def ebpfExtensionHookProviderDetachClient (providerBindingContext : Nat) (m : Memory) :
    Option (NtStatus × Memory) :=
  match m.readClient providerBindingContext with
  | none => none
  | some localClientContext =>
    if providerBindingContext = 0 then some (statusInvalidParameter, m)
    else
      let m := m.withLock exAcquireSpinLockExclusive
      match removeEntryList m.links providerBindingContext with
      | none => none
      | some (_, links) =>
        let m := Memory.withLock exReleaseSpinLockExclusive { m with links }
        some (statusPending, ioQueueWorkItem localClientContext.detachWorkItem m)

/-- `NULL` を渡すと、`NULL` の確認より前の読み出しで止まり、`STATUS_INVALID_PARAMETER` は返らない。 -/
example : ebpfExtensionHookProviderDetachClient 0 Memory.empty = none := rfl

/-- `_ebpf_extension_hook_provider_cleanup_binding_context`。 -/
def ebpfExtensionHookProviderCleanupBindingContext (providerBindingContext : Nat) (m : Memory) :
    Memory :=
  if providerBindingContext ≠ 0 then exFreePool providerBindingContext m else m

/-! ## 登録 -/

/--
`ebpf_extension_hook_provider_unregister`。`NmrDeregisterProvider` と client の detach を待つのは
NMR の中の話で、ここでは provider の record を解放することだけを書く。
-/
def ebpfExtensionHookProviderUnregister (providerContext : Nat) (m : Memory) : Memory :=
  if providerContext ≠ 0 then exFreePool providerContext m else m

/--
`ebpf_extension_hook_provider_register`。`nmrStatus` は `NmrRegisterProvider` の結果。
成功すれば provider の record のアドレスを返す。`attached_clients_list` はそのアドレスに置く。
-/
def ebpfExtensionHookProviderRegister (allocOk : Bool) (nmrStatus : NtStatus) (m : Memory) :
    NtStatus × Nat × Memory :=
  let (localProviderContext, m) := exAllocatePool allocOk .provider m
  if localProviderContext = 0 then (statusInsufficientResources, 0, m)
  else
    let m := { m with links := initializeListHead m.links localProviderContext }
    if ntSuccess nmrStatus then (statusSuccess, localProviderContext, m)
    else (nmrStatus, 0, ebpfExtensionHookProviderUnregister localProviderContext m)

/-! ## client を探す -/

/-- `ebpf_extension_hook_get_attached_client`。 -/
def ebpfExtensionHookGetAttachedClient (providerContext : Nat) (m : Memory) : Nat × Memory :=
  let m := m.withLock exAcquireSpinLockShared
  let clientContext :=
    if !isListEmpty m.links providerContext then (m.links providerContext).flink else 0
  (clientContext, m.withLock exReleaseSpinLockShared)

/-- `ebpf_extension_hook_get_next_attached_client`。 -/
def ebpfExtensionHookGetNextAttachedClient (providerContext clientContext : Nat) (m : Memory) :
    Nat × Memory :=
  let m := m.withLock exAcquireSpinLockShared
  let nextClient :=
    if clientContext = 0 then
      if !isListEmpty m.links providerContext then (m.links providerContext).flink else 0
    else if (m.links clientContext).flink ≠ providerContext then (m.links clientContext).flink
    else 0
  (nextClient, m.withLock exReleaseSpinLockShared)

end EbpfExt
