import EbpfExt.Concurrent.Safety

/-!
# どの client も後片付けまで進める

着けるどの状態からも、client `c` は自分の binding の event と、`c` の rundown の参照を持つ thread の
`ebpf_extension_hook_invoke_program` と `ebpf_extension_hook_client_leave_rundown` だけで、attach の失敗か
binding context の後片付けまで進める。完了の work item の `ExWaitForRundownProtectionRelease` は、参照を
持つ thread が返せば戻り、detach も `InsertTailList` も止まらない。

* `Inv.bindingStep` — 終わっていない client には、その phase を進める binding の event がいつもある
* `Reach.finishes` — 参照を持つ thread がいなければ、binding の event だけで終わりまで進める
* `Reach.drainHolders` — 参照を持つ thread は、invoke と leave で参照を返せる
* `reach_clientCompletes` — 二つを合わせて、どの client も record の解放まで進める
* `reach_quiesce` — 新しい attach も探索もなしに、どの client も終わり、リストが空になるまで進める
-/

namespace EbpfExt

variable {cb : AttachCallback} {hd : Nat} {s s' : Sys}

/-! ## event の分類 -/

/-- binding の event が扱う client。attach の始まりと thread の event は `none`。 -/
def Event.bindingClient : Event → Option Nat
  | .attachCallback a | .attachInsert a | .detach a | .completionBegin a | .completionEnd a | .cleanup a => some a
  | _ => none

/-- 参照を返すまでの thread の event（`invoke` と `leave`）の thread。 -/
def Event.releaseThread : Event → Option Nat
  | .invoke t | .leave t => some t
  | _ => none

/-- binding の phase の、終わりまでの残り。 -/
def Phase.rank : Phase → Nat
  | .attaching => 6
  | .inserting => 5
  | .attached => 4
  | .detached => 3
  | .closing _ => 2
  | .completed => 1
  | .none | .failed | .cleanedUp => 0

theorem Phase.rank_eq_zero {p : Phase} : p.rank = 0 ↔ p = .none ∨ p = .failed ∨ p = .cleanedUp := by
  cases p <;> simp [Phase.rank]

/-- events を続けて走らせる。 -/
theorem run_append {s₁ : Sys} {es₁ : List Event} (h : run cb hd s es₁ = .next s₁) (es₂ : List Event) :
    run cb hd s (es₁ ++ es₂) = run cb hd s₁ es₂ := by
  induction es₁ generalizing s with
  | nil => cases h; rfl
  | cons e es ih =>
    cases h₁ : step cb hd s e with
    | next s₂ =>
      rw [run_cons h₁] at h
      rw [List.cons_append, run_cons h₁, ih h]
    | blocked | bugcheck | useAfterFree => simp only [run, h₁, reduceCtorEq] at h

/-! ## binding の event -/

/--
終わっていない client には、その phase を進める binding の event がいつもある。thread は動かない。
`closing` で待っている完了の work item は、参照を持つ thread がいなければ戻る。
-/
theorem Inv.bindingStep (hi : Inv hd s) (cb : AttachCallback) {c : Nat} (h0 : holders s c = 0) (hr : 0 < (s.phase c).rank) :
    ∃ e s', e.bindingClient = some c ∧ EbpfExt.step cb hd s e = .next s' ∧ s'.invokers = s.invokers ∧
      (s'.phase c).rank < (s.phase c).rank ∧ s'.phase c ≠ .none := by
  have hrec := hi.record c
  cases hp : s.phase c <;> rw [hp] at hr hrec <;> simp only [Phase.rank, Nat.lt_irrefl] at hr
  case attaching =>
    by_cases hcb : cb s.mem c = .success
    · refine ⟨.attachCallback c,
        { s with
          phase := Function.update s.phase c .inserting }, rfl, by simp [EbpfExt.step, hp, hcb], rfl, ?_, ?_⟩ <;>
        simp [Phase.rank]
    · refine ⟨.attachCallback c,
        { s with
          mem := (attachClientExit statusAccessDenied c s.mem (some 0) (some 0)).mem
          phase := Function.update s.phase c .failed }, rfl, by simp [EbpfExt.step, hp, hcb], rfl, ?_, ?_⟩ <;>
        simp [Phase.rank]
  case inserting =>
    obtain ⟨hnot, hc0, hcl⟩ := hi.inserting_not_mem hp
    obtain ⟨M, hins, -⟩ := attachClientInsert_clientList hi.clientList hnot hc0 hcl
    refine ⟨.attachInsert c,
      { s with
        mem := (attachClientExit statusSuccess c M (some 0) (some 0)).mem
        phase := Function.update s.phase c .attached
        attached := s.attached ++ [c] }, rfl, by simp [EbpfExt.step, hp, hins], rfl, ?_, ?_⟩ <;>
      simp [Phase.rank]
  case attached =>
    obtain ⟨m, hdet⟩ := hi.detachClient_pending hp
    refine ⟨.detach c,
      { s with
        mem := m
        phase := Function.update s.phase c .detached
        attached := s.attached.erase c }, rfl, by simp [EbpfExt.step, hp, hdet], rfl, ?_, ?_⟩ <;>
      simp [Phase.rank]
  case detached =>
    refine ⟨.completionBegin c,
      { s with
        mem := waitForRundownBegin c (runWorkItem (s.mem.clientAt c).detachWorkItem s.mem)
        phase := Function.update s.phase c (.closing (s.mem.clientAt c).detachWorkItem) }, rfl, by simp [EbpfExt.step, hp], rfl, ?_, ?_⟩ <;>
      simp [Phase.rank]
  case closing w =>
    have hcount : (s.mem.clientAt c).rundown.protection.count = 0 := by rw [hrec.2.2.2, h0]
    refine ⟨.completionEnd c,
      { s with
        mem := ioFreeWorkItem w (s.mem.updateClient c fun c =>
          { c with rundown := { c.rundown with rundownOccurred := true } })
        phase := Function.update s.phase c .completed }, rfl, by simp [EbpfExt.step, hp, waitForRundownEnd, hcount], rfl, ?_, ?_⟩ <;>
      simp [Phase.rank]
  case completed =>
    refine ⟨.cleanup c,
      { s with
        mem := ebpfExtensionHookProviderCleanupBindingContext c s.mem
        phase := Function.update s.phase c .cleanedUp }, rfl, by simp [EbpfExt.step, hp], rfl, ?_, ?_⟩ <;>
      simp [Phase.rank]

/-- 参照を持つ thread がいなければ、`c` は自分の binding の event だけで attach の失敗か後片付けまで進む。 -/
theorem Reach.finishes (hs : Reach cb hd s) {c : Nat} (h0 : holders s c = 0) (hc : s.phase c ≠ .none) :
    ∃ es s', EbpfExt.run cb hd s es = .next s' ∧ (∀ e ∈ es, e.bindingClient = some c) ∧ s'.invokers = s.invokers ∧
      (s'.phase c = .failed ∨ s'.phase c = .cleanedUp) := by
  obtain ⟨n, hn⟩ : ∃ n, (s.phase c).rank = n := ⟨_, rfl⟩
  induction n using Nat.strong_induction_on generalizing s with
  | _ n ih =>
    rcases Nat.eq_zero_or_pos n with rfl | hpos
    · exact ⟨[], s, rfl, fun _ h => absurd h (List.not_mem_nil _), rfl, (Phase.rank_eq_zero.mp hn).resolve_left hc⟩
    · obtain ⟨e, s₁, he, hst, hinv, hlt, hc₁⟩ := hs.inv.bindingStep cb h0 (hn ▸ hpos)
      have h0₁ : holders s₁ c = 0 := by rw [holders, hinv]; exact h0
      obtain ⟨es, s', hrun, hes, hinv', hfin⟩ := ih _ (hn ▸ hlt) (hs.step hst) h0₁ hc₁ rfl
      exact ⟨e :: es, s', by rw [run_cons hst, hrun], List.forall_mem_cons.mpr ⟨he, hes⟩, hinv'.trans hinv, hfin⟩

/-! ## 参照を返す thread -/

/-- `c` の参照を持つ thread は、invoke と leave を走らせて参照を返し、`c` を済ませる。 -/
theorem Inv.runRelease (hi : Inv hd s) (cb : AttachCallback) {t c : Nat} {pc : InvokerPc} (ht : s.invokers[t]? = some pc)
    (hh : pc.holds c = true) :
    ∃ es, (∀ e ∈ es, e.releaseThread = some t) ∧
      run cb hd s es = .next
        { s with
          mem := ebpfExtensionHookClientLeaveRundown c s.mem
          invokers := s.invokers.set t (.passed c) } := by
  have hlive := hi.live_of_holders (holders_pos ht hh)
  have hlt := (List.getElem?_eq_some_iff.mp ht).1
  cases pc with
  | idle | found _ | passed _ => simp at hh
  | invoked c' =>
    obtain rfl : c' = c := by simpa using hh
    exact ⟨[.leave t], by simp [Event.releaseThread], by simp [run, EbpfExt.step, ht, hlive]⟩
  | entered c' =>
    obtain rfl : c' = c := by simpa using hh
    refine ⟨[.invoke t, .leave t], by simp [Event.releaseThread], ?_⟩
    simp [run, EbpfExt.step, ht, hlive, List.getElem?_set_self hlt]

/--
参照を持つ thread は、どれも invoke と leave で参照を返せる。走らせるのは、始めに `c` の参照を持っていた
thread の event だけで、phase もリストも変わらない。
-/
theorem Reach.drainHolders (hs : Reach cb hd s) (c : Nat) :
    ∃ es s', EbpfExt.run cb hd s es = .next s' ∧
      (∀ e ∈ es, ∃ t pc, e.releaseThread = some t ∧ s.invokers[t]? = some pc ∧ pc.holds c = true) ∧
      holders s' c = 0 ∧ s'.phase = s.phase := by
  obtain ⟨n, hn⟩ : ∃ n, holders s c = n := ⟨_, rfl⟩
  induction n generalizing s with
  | zero => exact ⟨[], s, rfl, fun _ h => absurd h (List.not_mem_nil _), hn, rfl⟩
  | succ n ih =>
    obtain ⟨pc, hmem, hh⟩ := List.countP_pos_iff.mp (hn ▸ Nat.succ_pos n : 0 < holders s c)
    obtain ⟨t, ht⟩ := List.mem_iff_getElem?.mp hmem
    obtain ⟨es₁, hes₁, hrun₁⟩ := hs.inv.runRelease cb ht hh
    have hs₁ := hs.run hrun₁
    have hn₁ : holders
        { s with
          mem := ebpfExtensionHookClientLeaveRundown c s.mem
          invokers := s.invokers.set t (.passed c) } c = n := by
      rw [holders, holders_set ht, hh, hn]
      simp
    obtain ⟨es₂, s', hrun₂, hes₂, h0, hp⟩ := ih hs₁ hn₁
    refine ⟨es₁ ++ es₂, s', by rw [run_append hrun₁, hrun₂], fun e he => ?_, h0, hp⟩
    rcases List.mem_append.mp he with he | he
    · exact ⟨t, pc, hes₁ e he, ht, hh⟩
    · obtain ⟨u, pc', hu, hu', hh'⟩ := hes₂ e he
      by_cases hut : u = t
      · subst hut
        rw [List.getElem?_set_self (List.getElem?_eq_some_iff.mp ht).1] at hu'
        cases hu'
        simp at hh'
      · exact ⟨u, pc', hu, by rwa [List.getElem?_set_ne (Ne.symm hut)] at hu', hh'⟩

/-! ## client が終わるまで -/

/--
着けるどの状態からも、client `c` は、自分の binding の event（`attach_callback`、`InsertTailList`、detach、
完了の work item、binding context の後片付け）と、始めに `c` の rundown の参照を持っていた thread の
invoke と leave だけを走らせて、attach の失敗か後片付けまで進める。そこでは誰も `c` の参照を持たず、
`c` の record は解放されている。
-/
theorem reach_clientCompletes (hs : Reach cb hd s) {c : Nat} (hc : s.phase c ≠ .none) :
    ∃ es s', run cb hd s es = .next s' ∧
      (∀ e ∈ es, e.bindingClient = some c ∨
        ∃ t pc, e.releaseThread = some t ∧ s.invokers[t]? = some pc ∧ pc.holds c = true) ∧
      (s'.phase c = .failed ∨ s'.phase c = .cleanedUp) ∧ holders s' c = 0 ∧ (s'.mem.pool c).isFreed = true := by
  obtain ⟨es₁, s₁, hrun₁, hes₁, h0, hp⟩ := hs.drainHolders c
  have hs₁ := hs.run hrun₁
  obtain ⟨es₂, s', hrun₂, hes₂, -, hfin⟩ := hs₁.finishes h0 (by rw [hp]; exact hc)
  have hr := (hs₁.run hrun₂).inv.record c
  refine ⟨es₁ ++ es₂, s', by rw [run_append hrun₁, hrun₂], fun e he => ?_, hfin, ?_⟩
  · rcases List.mem_append.mp he with he | he
    · exact .inr (hes₁ e he)
    · exact .inl (hes₂ e he)
  · rcases hfin with hf | hf <;> rw [hf] at hr <;> exact ⟨hr.2, hr.1⟩

/-- detach された client の参照を、thread `0` がまだ持っている。 -/
def enterDetachEvents : List Event := attachEnterEvents ++ [.detach 2]

theorem reach_clientCompletes_enteredDetached :
    ∃ s, Reach (checkingCallback 3 [0, 0, 0] 1) 1 s ∧ s.phase 2 = .detached ∧ s.invokers[0]? = some (.entered 2) ∧
      ∃ es s', run (checkingCallback 3 [0, 0, 0] 1) 1 s es = .next s' ∧
        (∀ e ∈ es, e.bindingClient = some 2 ∨
          ∃ t pc, e.releaseThread = some t ∧ s.invokers[t]? = some pc ∧ pc.holds 2 = true) ∧
        (s'.phase 2 = .failed ∨ s'.phase 2 = .cleanedUp) ∧ holders s' 2 = 0 ∧ (s'.mem.pool 2).isFreed = true :=
  have hs := reach_of_registered_run (checkingCallback 3 [0, 0, 0] 1) 1 0 enterDetachEvents rfl
  ⟨_, hs, rfl, rfl, reach_clientCompletes hs (by decide)⟩

/-! ## どの client も終わるまで -/

/-- 最後まで走った events の、最初の一歩。 -/
theorem run_cons_next {e : Event} {es : List Event} (h : run cb hd s (e :: es) = .next s') :
    ∃ s₁, step cb hd s e = .next s₁ ∧ run cb hd s₁ es = .next s' := by
  cases h₁ : step cb hd s e with
  | next s₁ => exact ⟨s₁, rfl, by rwa [run_cons h₁] at h⟩
  | blocked | bugcheck | useAfterFree => simp only [run, h₁, reduceCtorEq] at h

/-- binding の event はその client の phase だけを変え、参照を返す event はどの phase も変えない。 -/
theorem step_phase_of_ne {e : Event} (h : step cb hd s e = .next s')
    (he : e.bindingClient.isSome ∨ e.releaseThread.isSome) {x : Nat} (hx : e.bindingClient ≠ some x) :
    s'.phase x = s.phase x := by
  cases e with
  | attachCallback a =>
    obtain ⟨-, ⟨-, rfl⟩ | rfl⟩ := step_attachCallback h <;>
      exact Function.update_noteq (by rintro rfl; exact hx rfl) _ _
  | attachInsert a =>
    obtain ⟨-, M, -, rfl⟩ := step_attachInsert h
    exact Function.update_noteq (by rintro rfl; exact hx rfl) _ _
  | detach a =>
    obtain ⟨-, st, m, -, rfl⟩ := step_detach h
    exact Function.update_noteq (by rintro rfl; exact hx rfl) _ _
  | completionBegin a =>
    obtain ⟨-, rfl⟩ := step_completionBegin h
    exact Function.update_noteq (by rintro rfl; exact hx rfl) _ _
  | completionEnd a =>
    obtain ⟨w, -, -, rfl⟩ := step_completionEnd h
    exact Function.update_noteq (by rintro rfl; exact hx rfl) _ _
  | cleanup a =>
    obtain ⟨-, rfl⟩ := step_cleanup h
    exact Function.update_noteq (by rintro rfl; exact hx rfl) _ _
  | invoke t => obtain ⟨c, -, -, rfl⟩ := step_invoke h; rfl
  | leave t => obtain ⟨c, -, -, rfl⟩ := step_leave h; rfl
  | attachBegin | lookup | lookupNext | enter | iterate => simp [Event.bindingClient, Event.releaseThread] at he

/-- events の run でも、binding の event が扱う client のほかの phase は変わらない。 -/
theorem run_phase_of_ne {es : List Event} (h : run cb hd s es = .next s') {x : Nat}
    (hes : ∀ e ∈ es, (e.bindingClient.isSome ∨ e.releaseThread.isSome) ∧ e.bindingClient ≠ some x) :
    s'.phase x = s.phase x := by
  induction es generalizing s with
  | nil => cases h; rfl
  | cons e es ih =>
    obtain ⟨s₁, h₁, h⟩ := run_cons_next h
    have he := hes e (.head _)
    rw [ih h fun e' he' => hes e' (.tail _ he'), step_phase_of_ne h₁ he.1 he.2]

/-- 終わった phase（`none`、`failed`、`cleanedUp`）では誰も参照を持たず、client だった record は解放されている。 -/
theorem RecordOk.of_rank_zero {m : Memory} {x h : Nat} {p : Phase} (hr : RecordOk m x h p) (hp : p.rank = 0) :
    h = 0 ∧ (p ≠ .none → (m.pool x).isFreed = true) := by
  rcases Phase.rank_eq_zero.mp hp with rfl | rfl | rfl
  · exact ⟨hr, fun h => (h rfl).elim⟩
  all_goals exact ⟨hr.2, fun _ => hr.1⟩

/--
`L` の client を一つずつ終わらせる。`L` にない client の phase は変わらず、`none` だった phase は `none` のまま、
そうでない phase は `none` にならない。
-/
theorem Reach.settleList (hs : Reach cb hd s) (L : List Nat) :
    ∃ es s', EbpfExt.run cb hd s es = .next s' ∧ (∀ e ∈ es, e.bindingClient.isSome ∨ e.releaseThread.isSome) ∧
      (∀ x ∈ L, (s'.phase x).rank = 0) ∧ (∀ x, x ∉ L → s'.phase x = s.phase x) ∧
      ∀ x, s'.phase x = .none ↔ s.phase x = .none := by
  induction L with
  | nil => exact ⟨[], s, rfl, fun _ h => absurd h (List.not_mem_nil _), fun _ h => absurd h (List.not_mem_nil _),
      fun _ _ => rfl, fun _ => Iff.rfl⟩
  | cons c L ih =>
    obtain ⟨es₁, s₁, hrun₁, hes₁, hL, hout, hnone⟩ := ih
    have hs₁ := hs.run hrun₁
    by_cases hc : (s₁.phase c).rank = 0
    · refine ⟨es₁, s₁, hrun₁, hes₁, ?_, fun x hx => hout x fun h => hx (.tail _ h), hnone⟩
      rintro x (_ | ⟨_, hx⟩)
      exacts [hc, hL x hx]
    have hcn : s₁.phase c ≠ .none := fun h => hc (Phase.rank_eq_zero.mpr (.inl h))
    obtain ⟨es₂, s₂, hrun₂, hes₂, h0, hp⟩ := hs₁.drainHolders c
    obtain ⟨es₃, s', hrun₃, hes₃, -, hfin⟩ := (hs₁.run hrun₂).finishes h0 (by rw [hp]; exact hcn)
    have hother : ∀ x, x ≠ c → s'.phase x = s₁.phase x := fun x hx => by
      rw [run_phase_of_ne hrun₃ fun e he => by simp [hes₃ e he, Ne.symm hx], hp]
    have hc' : (s'.phase c).rank = 0 ∧ s'.phase c ≠ .none :=
      ⟨Phase.rank_eq_zero.mpr (.inr hfin), by rcases hfin with h | h <;> rw [h] <;> nofun⟩
    refine ⟨es₁ ++ (es₂ ++ es₃), s', by rw [run_append hrun₁, run_append hrun₂, hrun₃], ?_, ?_, ?_, ?_⟩
    · intro e he
      rcases List.mem_append.mp he with he | he
      · exact hes₁ e he
      rcases List.mem_append.mp he with he | he
      · obtain ⟨t, -, ht, -⟩ := hes₂ e he
        simp [ht]
      · simp [hes₃ e he]
    · rintro x (_ | ⟨_, hx⟩)
      · exact hc'.1
      · by_cases hxc : x = c
        · exact hxc ▸ hc'.1
        · rw [hother x hxc]; exact hL x hx
    · intro x hx
      rw [hother x fun h => hx (h ▸ .head _), hout x fun h => hx (.tail _ h)]
    · intro x
      by_cases hxc : x = c
      · subst hxc
        exact iff_of_false hc'.2 fun h => hcn ((hnone x).mpr h)
      · rw [hother x hxc, hnone]

/--
どの client も終わった phase（`none`、`failed`、`cleanedUp`）まで進める。`none` だった phase は `none` のまま、
そうでない phase は `none` にならない。
-/
theorem Reach.settleAll (hs : Reach cb hd s) :
    ∃ es s', EbpfExt.run cb hd s es = .next s' ∧ (∀ e ∈ es, e.bindingClient.isSome ∨ e.releaseThread.isSome) ∧
      (∀ x, (s'.phase x).rank = 0) ∧ ∀ x, s'.phase x = .none ↔ s.phase x = .none := by
  obtain ⟨es, s', hrun, hes, hL, hout, hnone⟩ := hs.settleList (List.range (s.mem.lastAddr + 1))
  refine ⟨es, s', hrun, hes, fun x => ?_, hnone⟩
  by_cases hx : x < s.mem.lastAddr + 1
  · exact hL x (List.mem_range.mpr hx)
  · rw [hout x (by simpa using hx), hs.inv.phase_fresh x (by omega)]; rfl

/--
着けるどの状態からも、新しい attach も探索も enter もたどりもなしに、binding の event と参照を返す thread の
event だけで、どの client も終わった状態まで進める。そこではリストは空で、どの thread も rundown の参照を
持たず、client になったことのある record は、attach の失敗か後片付けで、みな解放されている。
-/
theorem reach_quiesce (hs : Reach cb hd s) :
    ∃ es s', run cb hd s es = .next s' ∧ (∀ e ∈ es, e.bindingClient.isSome ∨ e.releaseThread.isSome) ∧
      s'.attached = [] ∧ (∀ x, holders s' x = 0) ∧
      ∀ x, s.phase x ≠ .none → (s'.phase x = .failed ∨ s'.phase x = .cleanedUp) ∧ (s'.mem.pool x).isFreed = true := by
  obtain ⟨es, s', hrun, hes, hsettled, hnone⟩ := hs.settleAll
  have hi := (hs.run hrun).inv
  refine ⟨es, s', hrun, hes, List.eq_nil_iff_forall_not_mem.mpr fun x hx => ?_,
    fun x => ((hi.record x).of_rank_zero (hsettled x)).1, fun x hx => ?_⟩
  · have h := hsettled x
    rw [(hi.attached_iff x).mp hx] at h
    cases h
  · have hx' : s'.phase x ≠ .none := fun h => hx ((hnone x).mp h)
    exact ⟨(Phase.rank_eq_zero.mp (hsettled x)).resolve_left hx', ((hi.record x).of_rank_zero (hsettled x)).2 hx'⟩

theorem reach_quiesce_enteredDetached :
    ∃ s, Reach (checkingCallback 3 [0, 0, 0] 1) 1 s ∧ s.phase 2 = .detached ∧ s.invokers[0]? = some (.entered 2) ∧
      ∃ es s', run (checkingCallback 3 [0, 0, 0] 1) 1 s es = .next s' ∧
        (∀ e ∈ es, e.bindingClient.isSome ∨ e.releaseThread.isSome) ∧
        s'.attached = [] ∧ (∀ x, holders s' x = 0) ∧
        ∀ x, s.phase x ≠ .none → (s'.phase x = .failed ∨ s'.phase x = .cleanedUp) ∧ (s'.mem.pool x).isFreed = true :=
  have hs := reach_of_registered_run (checkingCallback 3 [0, 0, 0] 1) 1 0 enterDetachEvents rfl
  ⟨_, hs, rfl, rfl, reach_quiesce hs⟩

end EbpfExt
