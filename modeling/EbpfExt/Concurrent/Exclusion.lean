import EbpfExt.Concurrent.Links

/-!
# attach parameter の排他と、確認と `InsertTailList` の間

`attach_callback` は共有 lock の下で `ebpf_extension_hook_check_attach_parameter` を走らせ、その後
`_ebpf_extension_hook_provider_attach_client` が排他 lock を取り直して `InsertTailList` する。二つは別々の
step なので、二つの attach の確認が、どちらの `InsertTailList` よりも先に済むことがある。

* `step_clientsKept` — どの step も、前からある client の attach parameter を変えない
* `serialReach_exclusive` — ある attach の確認から `InsertTailList` までの間にほかの attach の確認が
  入らない実行では、どの状態のリストも排他
* `attach_racingSameParameter` — 同じ parameter の二つの attach の確認が、どちらの `InsertTailList` よりも
  先に済むと、二つともリストに入る
-/

namespace EbpfExt

variable {cb : AttachCallback} {hd : Nat} {s s' : Sys}

/-! ## 前からある client -/

section Kept

variable {m m' : Memory} {a : Nat}

theorem clientsKept_withNewClient {c : HookClient} : ClientsKept m (m.withNewClient c) :=
  ClientsKept.of_pool (fun _ hx => Memory.withNewClient_pool_old hx) (by simp)

theorem clientsKept_allocateWorkItem : ClientsKept m m.allocateWorkItem :=
  ClientsKept.of_pool (fun _ _ => rfl) le_rfl

theorem clientsKept_waitForRundownBegin : ClientsKept m (waitForRundownBegin a m) :=
  clientsKept_updateClient fun _ => rfl

theorem clientsKept_runWorkItem {w : Nat} : ClientsKept m (runWorkItem w m) :=
  ClientsKept.of_pool (fun _ _ => rfl) le_rfl

theorem clientsKept_ebpfExtensionHookClientCleanup : ClientsKept m (ebpfExtensionHookClientCleanup a m) := by
  unfold ebpfExtensionHookClientCleanup
  dsimp only
  split_ifs
  · exact ClientsKept.refl m
  · exact clientsKept_ioFreeWorkItem.trans clientsKept_exFreePool
  · exact clientsKept_exFreePool

/-- 前からある client の実効 attach parameter は変わらない。 -/
theorem ClientsKept.effectiveAttachParameter_eq (h : ClientsKept m m') {W : Bytes} (ha : a ≤ m.lastAddr) :
    effectiveAttachParameter W (m'.clientAt a) = effectiveAttachParameter W (m.clientAt a) := by
  simp only [effectiveAttachParameter, h.clientData a ha]

end Kept

/-- どの step も、前からある client の record と attach parameter を変えない。 -/
theorem step_clientsKept {e : Event} (hi : Inv hd s) (h : step cb hd s e = .next s') : ClientsKept s.mem s'.mem := by
  cases e with
  | attachBegin env args =>
    rcases step_attachBegin h with rfl | ⟨c, -, rfl⟩ | ⟨c, -, -, rfl⟩
    · exact .refl _
    · exact clientsKept_withNewClient.trans (clientsKept_ebpfExtensionHookClientCleanup (a := s.mem.lastAddr + 1))
    · exact clientsKept_withNewClient.trans clientsKept_allocateWorkItem
  | attachCallback a =>
    obtain ⟨-, ⟨-, rfl⟩ | rfl⟩ := step_attachCallback h
    · exact .refl _
    · exact clientsKept_ebpfExtensionHookClientCleanup
  | attachInsert a =>
    obtain ⟨-, M, hM, rfl⟩ := step_attachInsert h
    rw [attachClientInsert_eq, Option.map_eq_some'] at hM
    obtain ⟨links, -, rfl⟩ := hM
    exact .of_pool (fun _ _ => rfl) le_rfl
  | detach c =>
    obtain ⟨hp, st, m, hdet, rfl⟩ := step_detach h
    obtain ⟨links, hdet', -⟩ := hi.detachClient hp
    rw [hdet', Option.some.injEq, Prod.mk.injEq] at hdet
    obtain ⟨-, rfl⟩ := hdet
    exact .of_pool (fun _ _ => rfl) le_rfl
  | completionBegin c =>
    obtain ⟨-, rfl⟩ := step_completionBegin h
    exact clientsKept_runWorkItem.trans clientsKept_waitForRundownBegin
  | completionEnd c =>
    obtain ⟨w, -, -, rfl⟩ := step_completionEnd h
    refine .trans ?_ clientsKept_ioFreeWorkItem
    exact clientsKept_updateClient fun _ => rfl
  | cleanup c =>
    obtain ⟨-, rfl⟩ := step_cleanup h
    exact ebpfExtensionHookProviderCleanupBindingContext_kept
  | lookup t =>
    obtain ⟨-, rfl⟩ := step_lookup h
    exact .refl _
  | lookupNext t =>
    obtain ⟨c, -, rfl⟩ := step_lookupNext h
    exact .refl _
  | enter t =>
    obtain ⟨c, -, -, ⟨-, -, rfl⟩ | ⟨-, rfl⟩⟩ := step_enter hi h
    · exact clientsKept_updateClient fun _ => rfl
    · exact .refl _
  | invoke t =>
    obtain ⟨c, -, -, rfl⟩ := step_invoke h
    exact .refl _
  | leave t =>
    obtain ⟨c, -, -, rfl⟩ := step_leave h
    exact clientsKept_updateClient fun _ => rfl
  | iterate t =>
    obtain ⟨c, -, rfl⟩ := step_iterate h
    exact .refl _

/-! ## 確認と `InsertTailList` を続けて行う実行 -/

/-- 確認を通った parameter は、リストから client が外れても通る。 -/
theorem AttachParameterAdmits.sublist {n : Nat} {P W : Bytes} {ps qs : List Bytes}
    (h : AttachParameterAdmits n P W ps) (hs : List.Sublist qs ps) : AttachParameterAdmits n P W qs := by
  rcases h with ⟨hP, rfl⟩ | ⟨hP, hq⟩
  · exact .inl ⟨hP, List.sublist_nil.mp hs⟩
  · exact .inr ⟨hP, fun q hm => hq q (hs.subset hm)⟩

/-- `attach_callback` の step か。 -/
def Event.isAttachCallback : Event → Bool
  | .attachCallback _ => true
  | _ => false

/--
attach の確認（`attach_callback`）は、ほかの attach が確認を通って `InsertTailList` を待っている間には
走らない。
-/
def Event.Serial (s : Sys) (e : Event) : Prop :=
  e.isAttachCallback = true → ∀ x ≤ s.mem.lastAddr, s.phase x ≠ .inserting

instance {s : Sys} {e : Event} : Decidable (e.Serial s) := inferInstanceAs (Decidable (_ → _))

/-- 確認から `InsertTailList` までがほかの attach の確認と重ならない実行で着く状態。 -/
inductive SerialReach (cb : AttachCallback) (hd : Nat) : Sys → Prop
  | init {allocOk : Bool} {nmrStatus st : NtStatus} {m : Memory} (n k : Nat) :
      ebpfExtensionHookProviderRegister allocOk nmrStatus Memory.empty = (st, hd, m) → ntSuccess st = true →
      SerialReach cb hd (Sys.initial m n k)
  | step {s s' : Sys} {e : Event} : SerialReach cb hd s → e.Serial s → step cb hd s e = .next s' →
      SerialReach cb hd s'

theorem SerialReach.reach (h : SerialReach cb hd s) : Reach cb hd s := by
  induction h with
  | init n k hr hs => exact .init n k hr hs
  | step _ _ hst ih => exact ih.step hst

/--
排他の不変条件：リストは排他で、`InsertTailList` を待つ client は高々一つ、その parameter は今のリストで
確認を通る。
-/
structure SerialInv (n : Nat) (W : Bytes) (s : Sys) : Prop where
  exclusive : Exclusive n W (attachParameters W s.mem s.attached)
  inserting_eq : ∀ x y, s.phase x = .inserting → s.phase y = .inserting → x = y
  admits : ∀ x, s.phase x = .inserting →
    AttachParameterAdmits n (effectiveAttachParameter W (s.mem.clientAt x)) W (attachParameters W s.mem s.attached)

theorem Inv.attached_le (hi : Inv hd s) {x : Nat} (hx : x ∈ s.attached) : x ≤ s.mem.lastAddr :=
  (hi.addr (by rw [(hi.attached_iff x).mp hx]; decide)).2.2

theorem inserting_update_iff {f : Nat → Phase} {c : Nat} {q : Phase} (hc : f c ≠ .inserting)
    (hq : q ≠ .inserting) (x : Nat) : Function.update f c q x = .inserting ↔ f x = .inserting := by
  by_cases hx : x = c
  · subst hx
    simp only [Function.update_same, hc, hq]
  · rw [Function.update_noteq hx]

section Serial

variable {n : Nat} {W : Bytes}

theorem SerialInv.initial (m : Memory) (n' k : Nat) : SerialInv n W (Sys.initial m n' k) :=
  ⟨Exclusive.nil, fun _ _ h _ => (nomatch h), fun _ h => nomatch h⟩

/-- `InsertTailList` を待つ client が変わらず、リストも前からある client も変わらない step。 -/
theorem SerialInv.frame (hi : Inv hd s) (hx : SerialInv n W s) (hk : ClientsKept s.mem s'.mem)
    (ha : s'.attached = s.attached) (hp : ∀ x, s'.phase x = .inserting ↔ s.phase x = .inserting) :
    SerialInv n W s' := by
  have hL : attachParameters W s'.mem s'.attached = attachParameters W s.mem s.attached := by
    rw [ha, hk.attachParameters_eq fun _ => hi.attached_le]
  refine ⟨hL ▸ hx.exclusive, fun x y hx' hy' => hx.inserting_eq x y ((hp x).mp hx') ((hp y).mp hy'),
    fun x hx' => ?_⟩
  have hxs := (hp x).mp hx'
  rw [hL, hk.effectiveAttachParameter_eq (hi.inserting_not_mem hxs).2.2]
  exact hx.admits x hxs

/-- 確認：通った client は、ほかに `InsertTailList` を待つ client がいなければ、ただ一つの待つ client になる。 -/
theorem SerialInv.attachCallback (hcb : AdmitsOnlyChecked n W hd cb) (hi : Inv hd s) (hx : SerialInv n W s)
    {a : Nat} (he : (Event.attachCallback a).Serial s) (h : step cb hd s (.attachCallback a) = .next s') :
    SerialInv n W s' := by
  have hk := step_clientsKept hi h
  obtain ⟨hp, ⟨hok, rfl⟩ | rfl⟩ := step_attachCallback h
  · have hins : ∀ x, Function.update s.phase a .inserting x = .inserting → x = a := fun x hx' => by
      by_contra hxa
      rw [Function.update_noteq hxa] at hx'
      exact he rfl x (hi.inserting_not_mem hx').2.2 hx'
    refine ⟨hx.exclusive, fun x y hx' hy' => (hins x hx').trans (hins y hy').symm, fun x hx' => ?_⟩
    obtain rfl := hins x hx'
    exact (ebpfExtensionHookCheckAttachParameter_success_iff hi.clientList n _ W).mp (hcb _ _ hok)
  · exact hx.frame hi hk rfl (inserting_update_iff (by rw [hp]; nofun) nofun)

/-- `InsertTailList`：待っていた client の parameter は今のリストで確認を通るので、足しても排他のまま。 -/
theorem SerialInv.attachInsert (hi : Inv hd s) (hx : SerialInv n W s) {a : Nat}
    (h : step cb hd s (.attachInsert a) = .next s') : SerialInv n W s' := by
  have hk := step_clientsKept hi h
  obtain ⟨hp, M, -, rfl⟩ := step_attachInsert h
  have hnone : ∀ x, Function.update s.phase a .attached x ≠ .inserting := fun x hx' => by
    by_cases hxa : x = a
    · subst hxa
      simp at hx'
    · rw [Function.update_noteq hxa] at hx'
      exact hxa (hx.inserting_eq x a hx' hp)
  refine ⟨?_, fun x _ h => absurd h (hnone x), fun x h => absurd h (hnone x)⟩
  show Exclusive n W (attachParameters W M (s.attached ++ [a]))
  rw [attachParameters, List.map_append, ← attachParameters, hk.attachParameters_eq fun _ => hi.attached_le,
    List.map_singleton, hk.effectiveAttachParameter_eq (hi.inserting_not_mem hp).2.2]
  exact hx.exclusive.snoc (hx.admits a hp)

/-- detach：リストから client を除いても、排他のままで、待つ client の確認も通ったまま。 -/
theorem SerialInv.detach (hi : Inv hd s) (hx : SerialInv n W s) {c : Nat}
    (h : step cb hd s (.detach c) = .next s') : SerialInv n W s' := by
  have hk := step_clientsKept hi h
  obtain ⟨hp, st, m, -, rfl⟩ := step_detach h
  have hs : List.Sublist (attachParameters W m (s.attached.erase c)) (attachParameters W s.mem s.attached) := by
    rw [hk.attachParameters_eq fun _ hx' => hi.attached_le (List.mem_of_mem_erase hx')]
    exact (s.attached.erase_sublist c).map _
  have hpi := inserting_update_iff (f := s.phase) (by rw [hp]; decide) (by decide : Phase.detached ≠ .inserting)
  refine ⟨hx.exclusive.sublist hs, fun x y hx' hy' => hx.inserting_eq x y ((hpi x).mp hx') ((hpi y).mp hy'),
    fun x hx' => ?_⟩
  have hxs := (hpi x).mp hx'
  show AttachParameterAdmits n (effectiveAttachParameter W (m.clientAt x)) W _
  rw [hk.effectiveAttachParameter_eq (hi.inserting_not_mem hxs).2.2]
  exact (hx.admits x hxs).sublist hs

theorem SerialInv.step (hcb : AdmitsOnlyChecked n W hd cb) (hi : Inv hd s) (hx : SerialInv n W s) {e : Event}
    (he : e.Serial s) (h : EbpfExt.step cb hd s e = .next s') : SerialInv n W s' := by
  have hk := step_clientsKept hi h
  have hfresh := hi.phase_fresh _ (Nat.lt_succ_self s.mem.lastAddr)
  cases e with
  | attachBegin env args =>
    rcases step_attachBegin h with rfl | ⟨c, -, rfl⟩ | ⟨c, -, -, rfl⟩
    · exact hx
    all_goals exact hx.frame hi hk rfl (inserting_update_iff (by rw [hfresh]; nofun) nofun)
  | attachCallback a => exact hx.attachCallback hcb hi he h
  | attachInsert a => exact hx.attachInsert hi h
  | detach c => exact hx.detach hi h
  | completionBegin c =>
    obtain ⟨hp, rfl⟩ := step_completionBegin h
    exact hx.frame hi hk rfl (inserting_update_iff (by rw [hp]; nofun) nofun)
  | completionEnd c =>
    obtain ⟨w, hp, -, rfl⟩ := step_completionEnd h
    exact hx.frame hi hk rfl (inserting_update_iff (by rw [hp]; nofun) nofun)
  | cleanup c =>
    obtain ⟨hp, rfl⟩ := step_cleanup h
    exact hx.frame hi hk rfl (inserting_update_iff (by rw [hp]; nofun) nofun)
  | lookup t =>
    obtain ⟨-, rfl⟩ := step_lookup h
    exact hx.frame hi hk rfl fun _ => Iff.rfl
  | lookupNext t =>
    obtain ⟨c, -, rfl⟩ := step_lookupNext h
    exact hx.frame hi hk rfl fun _ => Iff.rfl
  | enter t =>
    obtain ⟨c, -, -, ⟨-, -, rfl⟩ | ⟨-, rfl⟩⟩ := step_enter hi h
    all_goals exact hx.frame hi hk rfl fun _ => Iff.rfl
  | invoke t =>
    obtain ⟨c, -, -, rfl⟩ := step_invoke h
    exact hx.frame hi hk rfl fun _ => Iff.rfl
  | leave t =>
    obtain ⟨c, -, -, rfl⟩ := step_leave h
    exact hx.frame hi hk rfl fun _ => Iff.rfl
  | iterate t =>
    obtain ⟨c, -, rfl⟩ := step_iterate h
    exact hx.frame hi hk rfl fun _ => Iff.rfl

theorem SerialReach.serialInv (hcb : AdmitsOnlyChecked n W hd cb) (hs : SerialReach cb hd s) : SerialInv n W s := by
  induction hs with
  | init n' k _ _ => exact SerialInv.initial _ n' k
  | step hr he hst ih => exact ih.step hcb hr.reach.inv he hst

/--
`attach_callback` が確認の通った client だけを認め、ある attach の確認から `InsertTailList` までの間に
ほかの attach の確認が入らなければ、どの状態でもリストの client の attach parameter はどれも違い、
wildcard の client がいればそれだけがつながっている。hook を呼ぶ thread、たどる thread、detach と
その後片付けは、どう挟まってもよい。
-/
theorem serialReach_exclusive (hcb : AdmitsOnlyChecked n W hd cb) (hs : SerialReach cb hd s) :
    Exclusive n W (attachParameters W s.mem s.attached) :=
  (hs.serialInv hcb).exclusive

/--
client `2` を attach し、同じ parameter の client `3` の attach は確認で断られる。どの確認も、ほかの attach が
`InsertTailList` を待っていない時に走る。
-/
theorem serialReach_exclusive_sameParameterTwice :
    ∃ s, SerialReach (checkingCallback 3 [0, 0, 0] 1) 1 s ∧
      Exclusive 3 [0, 0, 0] (attachParameters [0, 0, 0] s.mem s.attached) :=
  have h0 := @SerialReach.init (checkingCallback 3 [0, 0, 0] 1) 1 true statusSuccess _ _ 0 0 rfl rfl
  have h1 := h0.step (e := .attachBegin ⟨true, true⟩ sameParameterArgs) (by decide) rfl
  have h2 := h1.step (e := .attachCallback 2) (by decide) rfl
  have h3 := h2.step (e := .attachInsert 2) (by decide) rfl
  have h4 := h3.step (e := .attachBegin ⟨true, true⟩ sameParameterArgs) (by decide) rfl
  have h5 := h4.step (e := .attachCallback 3) (by decide) rfl
  ⟨_, h5, serialReach_exclusive admitsOnlyChecked_checkingCallback h5⟩

end Serial

/-! ## 確認と `InsertTailList` の間に入る確認 -/

/-- 同じ parameter `[1, 2, 3]` の client `2` と `3` の attach が、どちらも確認を済ませてから `InsertTailList` に進む。 -/
def racingAttachEvents : List Event :=
  [.attachBegin ⟨true, true⟩ sameParameterArgs, .attachBegin ⟨true, true⟩ sameParameterArgs,
    .attachCallback 2, .attachCallback 3, .attachInsert 2, .attachInsert 3]

/--
確認を通った client だけを認める `attach_callback` でも、二つの attach の確認がどちらの `InsertTailList` よりも
先に済むと、どちらの確認も空のリストに対して通り、同じ parameter の client が二つリストに入る。
-/
theorem attach_racingSameParameter :
    AdmitsOnlyChecked 3 [0, 0, 0] 1 (checkingCallback 3 [0, 0, 0] 1) ∧
    ∃ s, Reach (checkingCallback 3 [0, 0, 0] 1) 1 s ∧ s.attached = [2, 3] ∧
      attachParameters [0, 0, 0] s.mem s.attached = [[1, 2, 3], [1, 2, 3]] ∧
      ¬ Exclusive 3 [0, 0, 0] (attachParameters [0, 0, 0] s.mem s.attached) :=
  ⟨admitsOnlyChecked_checkingCallback, _, reach_of_registered_run _ 0 0 racingAttachEvents rfl, rfl, rfl,
    by decide⟩

end EbpfExt
