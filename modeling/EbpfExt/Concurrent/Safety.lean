import EbpfExt.Concurrent.Links

/-!
# 着けるどの状態でも

`Reach.inv` から、binding の後片付けと hook を呼ぶ thread のあいだの約束を読み出す。

* `reach_clientList` — リストは正しい環状の双方向リストで、`InsertTailList` の順に、detach されていない
  client が並ぶ
* `reach_rundownDrained` — detach は待たずに `STATUS_PENDING` を返す。完了の work item の待ちは、rundown の
  参照を持つ thread がいないときに戻り、そのときに限る。戻った後は誰も参照を持たない
* `reach_enter_outcome` — 探索で見つけた client への enter は、リストから外れた後でも届く。参照を取るのは、
  完了の work item が rundown を閉じる前だけで、binding context が後片付けされていれば解放したブロックに触れる
* `enter_afterWaitReturned` — 待ちが戻って後片付けが済んだ client に、その前に探索で見つけていた thread が
  enter する
* `invocation_afterUnlink` — `ebpf_extension_hook_get_next_attached_client` で見つけた client の program が、
  リストから外れた後に呼ばれる。後片付けの後、済ませた client から次を探すと解放したブロックを読む
* `reach_rundownHolders` — rundown の参照の数は、参照を持つ thread の数に等しい。参照を持つ thread の
  呼び出しは解放したブロックに触れない
* `reach_attachedResources` — リストは正しく、その client の record、work item、rundown はどれも使える状態に
  あり、record も work item も二度は解放されない
* `reach_step_ne_bugcheck` — どの step も `LIST_ENTRY` の検査に落ちない
-/

namespace EbpfExt

variable {cb : AttachCallback} {hd : Nat} {s s' : Sys}

/-! ## リスト -/

/--
attach と detach がどう挟まっても、リストは正しい環状の双方向リストで、head から前にたどると、
`InsertTailList` が済んで detach がまだの client が `InsertTailList` の順に並ぶ。
`ebpf_extension_hook_get_attached_client` はその先頭（空なら `NULL`）を返す。
-/
theorem reach_clientList (hs : Reach cb hd s) :
    ClientList s.mem hd s.attached ∧
    (∀ e ∈ hd :: s.attached,
      (s.mem.links (s.mem.links e).flink).blink = e ∧ (s.mem.links (s.mem.links e).blink).flink = e) ∧
    walk s.mem.links hd (s.attached.length + 1) (s.mem.links hd).flink = s.attached ∧
    (ebpfExtensionHookGetAttachedClient hd s.mem).1 = s.attached.headD 0 ∧
    ∀ x, x ∈ s.attached ↔ s.phase x = .attached := by
  have hi := hs.inv
  have hl := hi.clientList
  exact ⟨hl, fun e he => hl.1.flink_blink he, walk_eq_of_listRep hl.1 (Nat.lt_succ_self _),
    by rw [ebpfExtensionHookGetAttachedClient_listRep hl.1], hi.attached_iff⟩

/-- client `2` と `3` の attach のあと `2` を detach する。 -/
def attachTwoDetachEvents : List Event :=
  [.attachBegin ⟨true, true⟩ sameParameterArgs, .attachBegin ⟨true, true⟩ otherParameterArgs,
    .attachCallback 3, .attachCallback 2, .attachInsert 3, .attachInsert 2, .detach 3]

theorem reach_clientList_attachTwoDetach :
    ∃ s, Reach (checkingCallback 3 [0, 0, 0] 1) 1 s ∧ s.attached = [2] ∧
      (ClientList s.mem 1 s.attached ∧
      (∀ e ∈ 1 :: s.attached,
        (s.mem.links (s.mem.links e).flink).blink = e ∧ (s.mem.links (s.mem.links e).blink).flink = e) ∧
      walk s.mem.links 1 (s.attached.length + 1) (s.mem.links 1).flink = s.attached ∧
      (ebpfExtensionHookGetAttachedClient 1 s.mem).1 = s.attached.headD 0 ∧
      ∀ x, x ∈ s.attached ↔ s.phase x = .attached) :=
  have hs := reach_of_registered_run (checkingCallback 3 [0, 0, 0] 1) 1 0 attachTwoDetachEvents rfl
  ⟨_, hs, rfl, reach_clientList hs⟩

/-! ## detach と rundown -/

/--
detach は待たずに `STATUS_PENDING` を返す。完了の work item の待ち（`ExWaitForRundownProtectionRelease`）が
戻るのは、`c` の rundown の参照を持つ thread がいないときで、そのときに限る。戻った step の後、そして待ちが
戻った後（work item の解放、`NmrProviderDetachClientComplete`、binding context の後片付けの前も後も）は、
参照を持つ thread はいない。
-/
theorem reach_rundownDrained (hs : Reach cb hd s) (c : Nat) :
    (s.phase c = .attached → ∃ m, ebpfExtensionHookProviderDetachClient c s.mem = some (statusPending, m)) ∧
    (∀ w, s.phase c = .closing w → ((∃ s', step cb hd s (.completionEnd c) = .next s') ↔ holders s c = 0)) ∧
    (∀ s', step cb hd s (.completionEnd c) = .next s' → s'.phase c = .completed ∧ holders s' c = 0) ∧
    ((s.phase c).waitReturned = true → holders s c = 0) := by
  have hi := hs.inv
  have hdrained : ∀ s', step cb hd s (.completionEnd c) = .next s' → holders s c = 0 ∧ s'.phase c = .completed ∧
      holders s' c = 0 := fun s' h => by
    obtain ⟨w, hp, hcount, rfl⟩ := step_completionEnd h
    have hr := hi.record c
    rw [hp] at hr
    have h0 : holders s c = 0 := by rw [hr.2.2.2] at hcount; exact hcount
    exact ⟨h0, Function.update_same _ _ _, h0⟩
  refine ⟨hi.detachClient_pending, fun w hp => ⟨fun ⟨s', h⟩ => (hdrained s' h).1, fun h0 => ?_⟩,
    fun s' h => (hdrained s' h).2, fun hw => ?_⟩
  · have hr := hi.record c
    rw [hp] at hr
    have hcount : (s.mem.clientAt c).rundown.protection.count = 0 := by rw [hr.2.2.2, h0]
    exact ⟨_, by simp [step, hp, waitForRundownEnd, hcount]; rfl⟩
  · have hr := hi.record c
    cases hp : s.phase c <;> rw [hp] at hr hw <;> first | exact hr.2.2.2 | exact hr.2 | cases hw

/-- client `2` を attach し、thread `0` がそれを見つける。 -/
def attachLookupEvents : List Event :=
  [.attachBegin ⟨true, true⟩ sameParameterArgs, .attachCallback 2, .attachInsert 2, .lookup 0]

/-- client `2` を attach し、thread `0` がそれを見つけて rundown の参照を取る。 -/
def attachEnterEvents : List Event := attachLookupEvents ++ [.enter 0]

/-- thread `0` が参照を持ったまま、client `2` を detach し、完了の work item が rundown を閉じて待つ。 -/
def closingHeldEvents : List Event := attachEnterEvents ++ [.detach 2, .completionBegin 2]

/-- その後、thread `0` が program を呼んで leave する。 -/
def closingReleasedEvents : List Event := closingHeldEvents ++ [.invoke 0, .leave 0]

/--
待っている完了の work item：thread `0` が参照を持つあいだは戻れず、thread `0` が program を呼んで leave
すると戻れる。
-/
theorem reach_rundownDrained_closing :
    (∃ s, Reach (checkingCallback 3 [0, 0, 0] 1) 1 s ∧ s.phase 2 = .closing 1 ∧ holders s 2 = 1 ∧
      ((s.phase 2 = .attached → ∃ m, ebpfExtensionHookProviderDetachClient 2 s.mem = some (statusPending, m)) ∧
      (∀ w, s.phase 2 = .closing w →
        ((∃ s', step (checkingCallback 3 [0, 0, 0] 1) 1 s (.completionEnd 2) = .next s') ↔ holders s 2 = 0)) ∧
      (∀ s', step (checkingCallback 3 [0, 0, 0] 1) 1 s (.completionEnd 2) = .next s' →
        s'.phase 2 = .completed ∧ holders s' 2 = 0) ∧
      ((s.phase 2).waitReturned = true → holders s 2 = 0))) ∧
    ∃ s, Reach (checkingCallback 3 [0, 0, 0] 1) 1 s ∧ s.phase 2 = .closing 1 ∧ holders s 2 = 0 ∧
      ((s.phase 2 = .attached → ∃ m, ebpfExtensionHookProviderDetachClient 2 s.mem = some (statusPending, m)) ∧
      (∀ w, s.phase 2 = .closing w →
        ((∃ s', step (checkingCallback 3 [0, 0, 0] 1) 1 s (.completionEnd 2) = .next s') ↔ holders s 2 = 0)) ∧
      (∀ s', step (checkingCallback 3 [0, 0, 0] 1) 1 s (.completionEnd 2) = .next s' →
        s'.phase 2 = .completed ∧ holders s' 2 = 0) ∧
      ((s.phase 2).waitReturned = true → holders s 2 = 0)) :=
  have hs₁ := reach_of_registered_run (checkingCallback 3 [0, 0, 0] 1) 1 0 closingHeldEvents rfl
  have hs₂ := reach_of_registered_run (checkingCallback 3 [0, 0, 0] 1) 1 0 closingReleasedEvents rfl
  ⟨⟨_, hs₁, rfl, rfl, reach_rundownDrained hs₁ 2⟩, ⟨_, hs₂, rfl, rfl, reach_rundownDrained hs₂ 2⟩⟩

/--
探索が見つけた client `c` への enter は、`c` がリストから外れた後でも起こる（探索は lock を放してから
`c` を返す）。binding context の後片付けが `c` の record を解放していれば、enter は解放したブロックに触れ、
そのときに限る。そうでなければ enter は進み、参照を取るのは `c` がリストにあるか、外れて完了の work item が
まだ rundown を閉じていないときだけで、閉じていれば `c` を飛ばす。
-/
theorem reach_enter_outcome (hs : Reach cb hd s) {t c : Nat} (ht : s.invokers[t]? = some (.found c)) :
    (step cb hd s (.enter t) = .useAfterFree ↔ s.phase c = .cleanedUp) ∧
    (s.phase c ≠ .cleanedUp → ∃ s', step cb hd s (.enter t) = .next s' ∧
      s'.invokers[t]? = some (if s.phase c = .attached ∨ s.phase c = .detached then .entered c else .passed c)) := by
  have hi := hs.inv
  have hlive := (hi.record c).isLive_iff (hi.found t c ht)
  refine ⟨by rw [step_enter_eq_useAfterFree ht, Bool.eq_false_iff, ne_eq, hlive, not_not], fun hp => ?_⟩
  obtain ⟨s', hs'⟩ : ∃ s', step cb hd s (.enter t) = .next s' := by
    cases h : step cb hd s (.enter t) with
    | next s' => exact ⟨s', rfl⟩
    | blocked | bugcheck | useAfterFree => simp [step, ht, hlive.mpr hp] at h
  have hlt := (List.getElem?_eq_some_iff.mp ht).1
  refine ⟨s', hs', ?_⟩
  obtain ⟨c', ht', -, ⟨-, hpc, rfl⟩ | ⟨hact, rfl⟩⟩ := step_enter hi hs' <;> rw [ht] at ht' <;>
    obtain rfl : c = c' := by simpa using ht'
  · simp only [List.getElem?_set_self hlt, if_pos hpc]
  · have hr := hi.record c
    have hpc : ¬(s.phase c = .attached ∨ s.phase c = .detached) := by
      rintro (hq | hq) <;> rw [hq] at hr <;> simp [hr.2.2] at hact
    simp only [List.getElem?_set_self hlt, if_neg hpc]

/-- 外した client `2` の rundown に、detach の前に `2` を見つけていた thread `0` が入る。 -/
def unlinkEvents : List Event := attachLookupEvents ++ [.detach 2]

theorem reach_enter_outcome_unlinked :
    ∃ s, Reach (checkingCallback 3 [0, 0, 0] 1) 1 s ∧ s.invokers[0]? = some (.found 2) ∧ s.phase 2 = .detached ∧
      ((step (checkingCallback 3 [0, 0, 0] 1) 1 s (.enter 0) = .useAfterFree ↔ s.phase 2 = .cleanedUp) ∧
      (s.phase 2 ≠ .cleanedUp → ∃ s', step (checkingCallback 3 [0, 0, 0] 1) 1 s (.enter 0) = .next s' ∧
        s'.invokers[0]? = some (if s.phase 2 = .attached ∨ s.phase 2 = .detached then .entered 2 else .passed 2))) :=
  have hs := reach_of_registered_run (checkingCallback 3 [0, 0, 0] 1) 1 0 unlinkEvents rfl
  ⟨_, hs, rfl, rfl, reach_enter_outcome hs rfl⟩

/--
thread `0` と `1` が client `2` を見つけ、`1` だけが rundown に入る。`2` を detach し、完了の work item が
rundown を閉じ、`1` が program を呼んで leave すると待ちが戻り、binding context が後片付けされる。
-/
def staleEnterEvents : List Event :=
  [.attachBegin ⟨true, true⟩ sameParameterArgs, .attachCallback 2, .attachInsert 2, .lookup 0, .lookup 1,
    .enter 1, .detach 2, .completionBegin 2, .invoke 1, .leave 1, .completionEnd 2, .cleanup 2]

/--
待ちが戻るのは、rundown の参照を持つ thread `1` が leave した後。けれども thread `0` は、detach の前に
`ebpf_extension_hook_get_attached_client` で `2` を受け取ったまま、まだ enter していない。待ちが戻って
`NmrProviderDetachClientComplete` と binding context の後片付けが `2` の record を解放した後、thread `0` の
`ebpf_extension_hook_client_enter_rundown(2)` は解放したブロックの rundown を読み書きする。
-/
theorem enter_afterWaitReturned :
    ∃ s, Reach (checkingCallback 3 [0, 0, 0] 1) 1 s ∧ s.invokers[0]? = some (.found 2) ∧
      s.invokers[1]? = some (.passed 2) ∧ (s.phase 2).waitReturned = true ∧ s.phase 2 = .cleanedUp ∧
      holders s 2 = 0 ∧ step (checkingCallback 3 [0, 0, 0] 1) 1 s (.enter 0) = .useAfterFree :=
  ⟨_, reach_of_registered_run _ 2 0 staleEnterEvents rfl, rfl, rfl, rfl, rfl, rfl, rfl⟩

/--
全部の client を呼ぶ hook の thread `0` が `ebpf_extension_hook_get_next_attached_client(p, NULL)` で client `2`
を受け取り、その後で `2` が detach される。
-/
def nextUnlinkEvents : List Event :=
  [.attachBegin ⟨true, true⟩ sameParameterArgs, .attachCallback 2, .attachInsert 2, .lookupNext 0, .detach 2]

/--
thread `0` が `2` の program を呼んで leave し、`2` を済ませる。その後 `2` が detach され、完了の work item と
binding context の後片付けが済む。
-/
def nextCleanupEvents : List Event :=
  [.attachBegin ⟨true, true⟩ sameParameterArgs, .attachCallback 2, .attachInsert 2, .lookupNext 0, .enter 0,
    .invoke 0, .leave 0, .detach 2, .completionBegin 2, .completionEnd 2, .cleanup 2]

/--
`ebpf_extension_hook_get_next_attached_client` で見つけた client `2` を detach がリストから外した後で、
thread `0` の enter が参照を取り、`2` の program を呼ぶ。また、`2` を済ませた thread `0` が次の client を探す
`ebpf_extension_hook_get_next_attached_client(p, 2)` は、`NmrProviderDetachClientComplete` と後片付けの後でも
`2` の `LIST_ENTRY` を読み、それは解放したブロックにある。
-/
theorem invocation_afterUnlink :
    (∃ s s', Reach (checkingCallback 3 [0, 0, 0] 1) 1 s ∧ s.invokers[0]? = some (.found 2) ∧ 2 ∉ s.attached ∧
      step (checkingCallback 3 [0, 0, 0] 1) 1 s (.enter 0) = .next s' ∧ s'.invokers[0]? = some (.entered 2) ∧
      step (checkingCallback 3 [0, 0, 0] 1) 1 s' (.invoke 0) = .next { s' with invokers := s'.invokers.set 0 (.invoked 2) }) ∧
    ∃ s, Reach (checkingCallback 3 [0, 0, 0] 1) 1 s ∧ s.invokers[0]? = some (.passed 2) ∧ s.phase 2 = .cleanedUp ∧
      step (checkingCallback 3 [0, 0, 0] 1) 1 s (.lookupNext 0) = .useAfterFree :=
  ⟨⟨_, _, reach_of_registered_run _ 1 0 nextUnlinkEvents rfl, rfl, by decide, rfl, rfl, rfl⟩,
    ⟨_, reach_of_registered_run _ 1 0 nextCleanupEvents rfl, rfl, rfl, rfl⟩⟩

/-! ## rundown の参照 -/

/-- 参照を持つ thread がいる client の record は生きている。 -/
theorem Inv.live_of_holders (hi : Inv hd s) {c : Nat} (h : 0 < holders s c) : (s.mem.pool c).isLive = true := by
  have hr := hi.record c
  rcases hr.counted h with hp | hp | ⟨w, hp⟩ <;> rw [hp] at hr <;> obtain ⟨r, hl⟩ := hr.1 <;>
    rw [hl] <;> rfl

/--
record が生きている client の rundown の参照の数は、いつも参照を持っている thread の数に等しい：enter の
取得も leave の解放も、失われず二重にも数えられない。参照を持つ thread のいる client の record は生きていて、
その thread の `ebpf_extension_hook_invoke_program` と `ebpf_extension_hook_client_leave_rundown` は解放した
ブロックに触れない。
-/
theorem reach_rundownHolders (hs : Reach cb hd s) :
    (∀ c, LiveClient s.mem c → s.phase c ≠ .none →
      (s.mem.clientAt c).rundown.protection.count = holders s c) ∧
    (∀ c, 0 < holders s c → LiveClient s.mem c ∧
      (s.phase c = .attached ∨ s.phase c = .detached ∨ ∃ w, s.phase c = .closing w)) ∧
    ∀ t, step cb hd s (.invoke t) ≠ .useAfterFree ∧ step cb hd s (.leave t) ≠ .useAfterFree := by
  have hi := hs.inv
  have hheld : ∀ c, 0 < holders s c → LiveClient s.mem c ∧
      (s.phase c = .attached ∨ s.phase c = .detached ∨ ∃ w, s.phase c = .closing w) := fun c hc => by
    have hr := hi.record c
    have hp := hr.counted hc
    refine ⟨?_, hp⟩
    rcases hp with hp | hp | ⟨w, hp⟩ <;> rw [hp] at hr <;> exact hr.1
  refine ⟨fun c ⟨r, hl⟩ hp => ?_, hheld, fun t => ⟨?_, ?_⟩⟩
  · have hr := hi.record c
    cases hq : s.phase c <;> rw [hq] at hr
    case none => exact absurd hq hp
    case attaching | inserting | completed => rw [hr.2.2.1]
    case attached | detached => rw [hr.2.2]
    case closing w => rw [hr.2.2.2]
    case failed | cleanedUp => simp [RecordOk, hl, Block.isFreed] at hr
  all_goals
    simp only [step]
    split
    · next c ht => simp [hi.live_of_holders (holders_pos ht (x := c) (by simp))]
    · nofun

theorem reach_rundownHolders_entered :
    ∃ s, Reach (checkingCallback 3 [0, 0, 0] 1) 1 s ∧ s.invokers[0]? = some (.entered 2) ∧
      ((∀ c, LiveClient s.mem c → s.phase c ≠ .none →
        (s.mem.clientAt c).rundown.protection.count = holders s c) ∧
      (∀ c, 0 < holders s c → LiveClient s.mem c ∧
        (s.phase c = .attached ∨ s.phase c = .detached ∨ ∃ w, s.phase c = .closing w)) ∧
      ∀ t, step (checkingCallback 3 [0, 0, 0] 1) 1 s (.invoke t) ≠ .useAfterFree ∧
        step (checkingCallback 3 [0, 0, 0] 1) 1 s (.leave t) ≠ .useAfterFree) :=
  have hs := reach_of_registered_run (checkingCallback 3 [0, 0, 0] 1) 1 0 attachEnterEvents rfl
  ⟨_, hs, rfl, reach_rundownHolders hs⟩

/-! ## 資源 -/

/--
リストは正しい環状の双方向リストで、その client の record は生きていて、その work item は `NULL` でなく、queue も
解放もされていない。rundown は開いていて、まだ run down していない。record も work item も、解放は一度まで。
-/
theorem reach_attachedResources (hs : Reach cb hd s) :
    ClientList s.mem hd s.attached ∧
    (∀ c ∈ s.attached, LiveClient s.mem c ∧ WorkItemIn s.mem c .allocated ∧
      (s.mem.clientAt c).rundown.protection.active = false ∧ (s.mem.clientAt c).rundown.rundownOccurred = false) ∧
    (∀ x, s.mem.poolFrees x ≤ 1) ∧ ∀ w, s.mem.workItemFrees w ≤ 1 := by
  have hi := hs.inv
  refine ⟨hi.clientList, fun c hc => ?_, hi.accounted.poolFrees_le, hi.accounted.workItemFrees_le⟩
  have hr := hi.record c
  rw [(hi.attached_iff c).mp hc] at hr
  obtain ⟨hlive, hw, hrd⟩ := hr
  exact ⟨hlive, hw, by rw [hrd], by rw [hrd]⟩

theorem reach_attachedResources_entered :
    ∃ s, Reach (checkingCallback 3 [0, 0, 0] 1) 1 s ∧ s.attached = [2] ∧
      (ClientList s.mem 1 s.attached ∧
      (∀ c ∈ s.attached, LiveClient s.mem c ∧ WorkItemIn s.mem c .allocated ∧
        (s.mem.clientAt c).rundown.protection.active = false ∧ (s.mem.clientAt c).rundown.rundownOccurred = false) ∧
      (∀ x, s.mem.poolFrees x ≤ 1) ∧ ∀ w, s.mem.workItemFrees w ≤ 1) :=
  have hs := reach_of_registered_run (checkingCallback 3 [0, 0, 0] 1) 1 0 attachEnterEvents rfl
  ⟨_, hs, rfl, reach_attachedResources hs⟩

/-! ## `KeBugCheck` -/

/-- どの step も `KeBugCheck` に着かない：つなぐ client はリストになく、外す client はリストにある。 -/
theorem reach_step_ne_bugcheck (hs : Reach cb hd s) (e : Event) : step cb hd s e ≠ .bugcheck := by
  have hi := hs.inv
  cases e with
  | attachInsert a =>
    by_cases hp : s.phase a = .inserting
    · obtain ⟨hnot, ha0, hal⟩ := hi.inserting_not_mem hp
      obtain ⟨M, hins, -⟩ := attachClientInsert_clientList hi.clientList hnot ha0 hal
      simp [step, hp, hins]
    · simp [step, hp]
  | detach c =>
    by_cases hp : s.phase c = .attached
    · obtain ⟨m, hdet⟩ := hi.detachClient_pending hp
      simp [step, hp, hdet]
    · simp [step, hp]
  | _ => simp only [step]; repeat' split <;> simp

theorem reach_step_ne_bugcheck_released :
    ∃ s, Reach (checkingCallback 3 [0, 0, 0] 1) 1 s ∧ ∀ e, step (checkingCallback 3 [0, 0, 0] 1) 1 s e ≠ .bugcheck :=
  have hs := reach_of_registered_run (checkingCallback 3 [0, 0, 0] 1) 2 0 staleEnterEvents rfl
  ⟨_, hs, reach_step_ne_bugcheck hs⟩

end EbpfExt
