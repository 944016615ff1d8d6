import EbpfExt.Properties.Sequential

/-!
# provider と、それを呼ぶ thread たち

NMR の binding の操作（attach、detach、完了の work item、binding context の後片付け）と、hook を呼ぶ
thread（client を探し、rundown に入り、program を呼び、出る）と、client を順にたどる thread が、
好きな順に交互に進む。hook を呼ぶ thread は、先頭の client だけを呼ぶ hook
（`ebpf_extension_hook_get_attached_client`）でも、全部の client を順に呼ぶ hook
（`ebpf_extension_hook_get_next_attached_client` で前の client の次を探す）でもよい。一つの step は、lock の中の処理か、他の thread から見えないところだけを触る
処理のまとまりで、`HookProvider` の区切りの関数そのものを使う。

* attach は三つに分かれる：`attach_callback` の前まで（新しい record と work item しか触らない）、
  `attach_callback`（確認は共有 lock の中）、`InsertTailList`（排他 lock の中）
* 完了の work item は二つに分かれる：走り出して rundown を閉じるまでと、待ちが戻ってからの後
* detach と、lock を取る探索はそれぞれ一つの step

`Sys` の `phase` と `attached` は ghost で、C にはない。NMR の約束（detach は成功した attach に一度だけ、
後片付けは `NmrProviderDetachClientComplete` の後だけ）は、`phase` を見て step を許すことで書く。

* `Outcome` — step の行き先：進む、待つ、`KeBugCheck`、解放したブロックに触れる
-/

namespace EbpfExt

/-! ## 状態 -/

/-- NMR と provider から見た、client の binding の段階（ghost）。 -/
inductive Phase
  /-- 割り当てていない、または client の record ではない。 -/
  | none
  /-- `attach_callback` を待っている。 -/
  | attaching
  /-- `attach_callback` が認め、`InsertTailList` を待っている。 -/
  | inserting
  /-- attach が失敗し、record を解放した。 -/
  | failed
  /-- リストにつながっている。 -/
  | attached
  /-- detach がリストから外し、work item を queue した。 -/
  | detached
  /-- 完了の work item が走り、rundown を閉じて待っている。`workItem` は読んでおいた work item。 -/
  | closing (workItem : Nat)
  /-- 待ちが戻り、work item を解放し、`NmrProviderDetachClientComplete` を呼んだ。 -/
  | completed
  /-- binding context の後片付けが record を解放した。 -/
  | cleanedUp
  deriving DecidableEq, Repr

/-- 一度はリストにつながった。 -/
def Phase.linked : Phase → Bool
  | .attached | .detached | .closing _ | .completed | .cleanedUp => true
  | _ => false

/-- 完了の work item の待ちが戻った後。 -/
def Phase.waitReturned : Phase → Bool
  | .completed | .cleanedUp => true
  | _ => false

/-- hook を呼ぶ thread のいるところ。 -/
inductive InvokerPc
  /-- 何もしていない。 -/
  | idle
  /--
  `ebpf_extension_hook_get_attached_client` か `ebpf_extension_hook_get_next_attached_client` が `c` を返した
  （lock はもう放した）。
  -/
  | found (c : Nat)
  /-- `ebpf_extension_hook_client_enter_rundown(c)` が `TRUE` を返した。 -/
  | entered (c : Nat)
  /-- `ebpf_extension_hook_invoke_program(c)` が戻った。 -/
  | invoked (c : Nat)
  /--
  `c` を済ませた（enter が `FALSE` を返したか、leave した）。参照は持たない。全部の client を呼ぶ hook は、
  次に `ebpf_extension_hook_get_next_attached_client(p, c)` を呼ぶ。そうでなければ hook は戻り、次の呼び出しは
  また探索から始まる。
  -/
  | passed (c : Nat)
  deriving DecidableEq, Repr

/-- `c` の rundown の参照を持っている。 -/
def InvokerPc.holds : InvokerPc → Nat → Bool
  | .entered c, x | .invoked c, x => c == x
  | _, _ => false

/-- client を順にたどる thread のいるところ。 -/
inductive IteratorPc
  | start
  /-- 前の `ebpf_extension_hook_get_next_attached_client` が `c` を返した。 -/
  | cursor (c : Nat)
  | done
  deriving DecidableEq, Repr

/-- 一つの step。thread は番号で、client は record のアドレスで指す。 -/
inductive Event
  | attachBegin (env : AttachEnv) (args : AttachClientArgs)
  | attachCallback (hookClient : Nat)
  | attachInsert (hookClient : Nat)
  | detach (hookClient : Nat)
  | completionBegin (hookClient : Nat)
  | completionEnd (hookClient : Nat)
  | cleanup (hookClient : Nat)
  | lookup (thread : Nat)
  | lookupNext (thread : Nat)
  | enter (thread : Nat)
  | invoke (thread : Nat)
  | leave (thread : Nat)
  | iterate (thread : Nat)

/-- provider と thread たちの状態。 -/
structure Sys where
  mem : Memory
  /-- client の binding の段階（ghost）。 -/
  phase : Nat → Phase
  /-- attach が成功して detach がまだの client、attach の順（ghost）。 -/
  attached : List Nat
  invokers : List InvokerPc
  iterators : List IteratorPc

/-- register した直後。hook を呼ぶ thread が `n` 個、たどる thread が `k` 個いる。 -/
def Sys.initial (m : Memory) (n k : Nat) : Sys :=
  ⟨m, fun _ => .none, [], List.replicate n .idle, List.replicate k .start⟩

/-- `x` の rundown の参照を持っている thread の数。 -/
def holders (s : Sys) (x : Nat) : Nat := s.invokers.countP (·.holds x)

/-- step の行き先。 -/
inductive Outcome
  /-- 進んだ。 -/
  | next (s : Sys)
  /-- 今は起こせない（待っている、またはその thread はそこにいない）。 -/
  | blocked
  /-- `LIST_ENTRY` の検査に落ちた、または読めないアドレスを読んだ。 -/
  | bugcheck
  /-- 解放したブロックに触れた。 -/
  | useAfterFree

/-! ## step -/

section Step

variable (cb : AttachCallback) (hd : Nat)

/-- 一つの step。`hd` は provider、`cb` は hook の `attach_callback`。 -/
def step (s : Sys) : Event → Outcome
  | .attachBegin env args =>
    if args.providerContext ≠ hd then .blocked
    else
      match attachClientPrologue env args s.mem with
      | .exit status hookClient m pbc pd =>
        .next { s with mem := (attachClientExit status hookClient m pbc pd).mem,
                       phase := if hookClient = 0 then s.phase else Function.update s.phase hookClient .failed }
      | .callback hookClient m _ _ =>
        .next { s with mem := m, phase := Function.update s.phase hookClient .attaching }
  | .attachCallback a =>
    if s.phase a ≠ .attaching then .blocked
    else if cb s.mem a = .success then .next { s with phase := Function.update s.phase a .inserting }
    else
      .next { s with mem := (attachClientExit statusAccessDenied a s.mem (some 0) (some 0)).mem,
                     phase := Function.update s.phase a .failed }
  | .attachInsert a =>
    if s.phase a ≠ .inserting then .blocked
    else
      match attachClientInsert hd a s.mem with
      | none => .bugcheck
      | some m =>
        .next { s with mem := (attachClientExit statusSuccess a m (some 0) (some 0)).mem,
                       phase := Function.update s.phase a .attached, attached := s.attached ++ [a] }
  | .detach c =>
    if s.phase c ≠ .attached then .blocked
    else
      match ebpfExtensionHookProviderDetachClient c s.mem with
      | none => .bugcheck
      | some (_, m) =>
        .next { s with mem := m, phase := Function.update s.phase c .detached, attached := s.attached.erase c }
  | .completionBegin c =>
    if s.phase c ≠ .detached then .blocked
    else
      let workItem := (s.mem.clientAt c).detachWorkItem
      .next { s with mem := waitForRundownBegin c (runWorkItem workItem s.mem),
                     phase := Function.update s.phase c (.closing workItem) }
  | .completionEnd c =>
    match s.phase c with
    | .closing workItem =>
      match waitForRundownEnd c s.mem with
      | none => .blocked
      | some m => .next { s with mem := ioFreeWorkItem workItem m, phase := Function.update s.phase c .completed }
    | _ => .blocked
  | .cleanup c =>
    if s.phase c ≠ .completed then .blocked
    else
      .next { s with mem := ebpfExtensionHookProviderCleanupBindingContext c s.mem,
                     phase := Function.update s.phase c .cleanedUp }
  | .lookup t =>
    match s.invokers[t]? with
    | some .idle | some (.passed _) =>
      let (c, m) := ebpfExtensionHookGetAttachedClient hd s.mem
      .next { s with mem := m, invokers := s.invokers.set t (if c = 0 then .idle else .found c) }
    | _ => .blocked
  | .lookupNext t =>
    match s.invokers[t]? with
    | some .idle =>
      let (next, m) := ebpfExtensionHookGetNextAttachedClient hd 0 s.mem
      .next { s with mem := m, invokers := s.invokers.set t (if next = 0 then .idle else .found next) }
    | some (.passed c) =>
      if !(s.mem.pool c).isLive then .useAfterFree
      else
        let (next, m) := ebpfExtensionHookGetNextAttachedClient hd c s.mem
        .next { s with mem := m, invokers := s.invokers.set t (if next = 0 then .idle else .found next) }
    | _ => .blocked
  | .enter t =>
    match s.invokers[t]? with
    | some (.found c) =>
      if !(s.mem.pool c).isLive then .useAfterFree
      else
        let (ok, m) := ebpfExtensionHookClientEnterRundown c s.mem
        .next { s with mem := m, invokers := s.invokers.set t (if ok then .entered c else .passed c) }
    | _ => .blocked
  | .invoke t =>
    match s.invokers[t]? with
    | some (.entered c) =>
      if !(s.mem.pool c).isLive then .useAfterFree
      else .next { s with invokers := s.invokers.set t (.invoked c) }
    | _ => .blocked
  | .leave t =>
    match s.invokers[t]? with
    | some (.invoked c) =>
      if !(s.mem.pool c).isLive then .useAfterFree
      else .next { s with mem := ebpfExtensionHookClientLeaveRundown c s.mem, invokers := s.invokers.set t (.passed c) }
    | _ => .blocked
  | .iterate t =>
    match s.iterators[t]? with
    | some .start =>
      let (next, m) := ebpfExtensionHookGetNextAttachedClient hd 0 s.mem
      .next { s with mem := m, iterators := s.iterators.set t (if next = 0 then .done else .cursor next) }
    | some (.cursor c) =>
      if !(s.mem.pool c).isLive then .useAfterFree
      else
        let (next, m) := ebpfExtensionHookGetNextAttachedClient hd c s.mem
        .next { s with mem := m, iterators := s.iterators.set t (if next = 0 then .done else .cursor next) }
    | _ => .blocked

/-- events を順に起こす。途中で進めなくなれば、その行き先で止まる。 -/
def run (s : Sys) : List Event → Outcome
  | [] => .next s
  | e :: es =>
    match step cb hd s e with
    | .next s' => run s' es
    | o => o

/-- 空のメモリで provider を register して始め、step を繰り返して着く状態。 -/
inductive Reach : Sys → Prop
  | init {allocOk : Bool} {nmrStatus st : NtStatus} {m : Memory} (n k : Nat) :
      ebpfExtensionHookProviderRegister allocOk nmrStatus Memory.empty = (st, hd, m) → ntSuccess st = true →
      Reach (Sys.initial m n k)
  | step {s s' : Sys} {e : Event} : Reach s → step cb hd s e = .next s' → Reach s'

variable {cb hd}

theorem run_cons {s : Sys} {e : Event} {es : List Event} {s' : Sys} (h : step cb hd s e = .next s') :
    run cb hd s (e :: es) = run cb hd s' es := by
  simp only [run, h]

/-- 着ける状態から events を走らせて進めば、着く先も着ける状態。 -/
theorem Reach.run {s s' : Sys} (hs : Reach cb hd s) :
    ∀ {es : List Event}, EbpfExt.run cb hd s es = .next s' → Reach cb hd s'
  | [], h => by cases h; exact hs
  | e :: es, h => by
    cases h₁ : EbpfExt.step cb hd s e with
    | next s₁ => exact (hs.step h₁).run (by rwa [run_cons h₁] at h)
    | blocked | bugcheck | useAfterFree => simp only [EbpfExt.run, h₁, reduceCtorEq] at h

/-- 空のメモリで provider を register し（`hd = 1`）、そこから events を走らせて着く状態は、着ける状態。 -/
theorem reach_of_registered_run (cb : AttachCallback) (n k : Nat) (es : List Event) {s : Sys}
    (h : run cb 1 (Sys.initial (ebpfExtensionHookProviderRegister true statusSuccess Memory.empty).2.2 n k) es =
      .next s) : Reach cb 1 s :=
  (@Reach.init cb 1 true statusSuccess _ _ n k rfl rfl).run h

end Step

end EbpfExt
