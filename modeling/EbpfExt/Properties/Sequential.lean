import EbpfExt.Properties.Lifecycle

/-!
# 一つずつ走らせた操作の列

一つの provider の上で、register、attach、detach、完了の work item、binding context の後片付けを、
どれも前のものが終わってから走らせる。そうして着くどの状態でも次が成り立つ。

* `seqReach_clientList` — リストは正しい環状の双方向リストで、前からたどると、attach が成功して
  detach がまだの client が attach の順に並ぶ。`ebpf_extension_hook_get_attached_client` はその先頭を、
  `NULL` から始めた `ebpf_extension_hook_get_next_attached_client` の繰り返しはその全部を一度ずつ返す
* `seqReach_exclusive` — `attach_callback` が `ebpf_extension_hook_check_attach_parameter` の通った
  client だけを認めるなら、リストの attach parameter はどれも違い、wildcard の client はいれば一つだけ

帰納法は一度だけ：`SeqInv`（リストの形と、リストの entry が client の record であること）が
各操作で保たれることを示し（`SeqInv.attach` など）、`SeqReach.inv` でまとめる。
-/

namespace EbpfExt

/-! ## client を探す -/

section Lookup

variable {m : Memory} {p : Nat} {l : List Nat}

/-- リストが `l` なら、`ebpf_extension_hook_get_attached_client` はその先頭（空なら `NULL`）を返す。 -/
theorem ebpfExtensionHookGetAttachedClient_listRep (h : ListRep m.links p l) :
    ebpfExtensionHookGetAttachedClient p m = (l.headD 0, m) := by
  have he := isListEmpty_iff h
  cases l with
  | nil => simp_all [ebpfExtensionHookGetAttachedClient]
  | cons x l =>
    have hx : (m.links p).flink = x := h.2.1
    simp_all [ebpfExtensionHookGetAttachedClient]

/-- `NULL` から始めると、`ebpf_extension_hook_get_next_attached_client` は先頭を探すのと同じ。 -/
theorem ebpfExtensionHookGetNextAttachedClient_null :
    ebpfExtensionHookGetNextAttachedClient p 0 m = ebpfExtensionHookGetAttachedClient p m := rfl

/-- client `c` の次：`c` の `Flink` が head でなければそれ、head なら `NULL`。メモリは変わらない。 -/
theorem ebpfExtensionHookGetNextAttachedClient_of_ne {c : Nat} (hc : c ≠ 0) :
    ebpfExtensionHookGetNextAttachedClient p c m =
      (if (m.links c).flink ≠ p then (m.links c).flink else 0, m) := by
  simp [ebpfExtensionHookGetNextAttachedClient, hc]

end Lookup

/--
Modelled from the spec: hook の側で client を順に回すループ。`NULL` から始めて、返った client を次の
`ebpf_extension_hook_get_next_attached_client` に渡し、`NULL` が返るまで続ける。`fuel` は呼ぶ回数の上限。
-/
def iterateAttachedClients (providerContext : Nat) : Nat → Nat → Memory → List Nat × Memory
  | 0, _, m => ([], m)
  | fuel + 1, clientContext, m =>
    let (next, m) := ebpfExtensionHookGetNextAttachedClient providerContext clientContext m
    if next = 0 then ([], m)
    else
      let (rest, m) := iterateAttachedClients providerContext fuel next m
      (next :: rest, m)

section Iterate

variable {m : Memory} {p : Nat}

/-- `c` から `p` までの区間 `xs` をたどると、その entry を順に返す。 -/
theorem iterateAttachedClients_of_seg {xs : List Nat} (hp : p ∉ xs) (h0 : 0 ∉ xs) :
    ∀ {c fuel : Nat}, Seg m.links c xs p → c ≠ 0 → xs.length < fuel →
      iterateAttachedClients p fuel c m = (xs, m) := by
  induction xs with
  | nil =>
    intro c fuel h hc hf
    obtain ⟨fuel, rfl⟩ : ∃ k, fuel = k + 1 := ⟨fuel - 1, by simp at hf; omega⟩
    simp [iterateAttachedClients, ebpfExtensionHookGetNextAttachedClient_of_ne hc, h.1]
  | cons x xs ih =>
    intro c fuel h hc hf
    obtain ⟨fuel, rfl⟩ : ∃ k, fuel = k + 1 := ⟨fuel - 1, by simp at hf; omega⟩
    obtain ⟨hcx, -, hseg⟩ := h
    have hxp : x ≠ p := fun e => hp (e ▸ List.mem_cons_self x xs)
    have hx0 : x ≠ 0 := fun e => h0 (e ▸ List.mem_cons_self x xs)
    have hrest : iterateAttachedClients p fuel x m = (xs, m) :=
      ih (fun e => hp (List.mem_cons_of_mem x e)) (fun e => h0 (List.mem_cons_of_mem x e)) hseg hx0
        (by simp at hf; omega)
    simp [iterateAttachedClients, ebpfExtensionHookGetNextAttachedClient_of_ne hc, hcx, hxp, hx0, hrest]

/-- `NULL` から回すと、リストの client を前から一度ずつ返して止まる。メモリは変わらない。 -/
theorem iterateAttachedClients_clientList {l : List Nat} (hl : ClientList m p l) {fuel : Nat}
    (hf : l.length < fuel) : iterateAttachedClients p fuel 0 m = (l, m) := by
  obtain ⟨fuel, rfl⟩ : ∃ k, fuel = k + 1 := ⟨fuel - 1, by omega⟩
  have h0 : 0 ∉ l := fun h => (lt_irrefl 0 (hl.2 0 (List.mem_cons_of_mem p h)).1)
  have hnd := hl.1.1
  cases l with
  | nil => simp [iterateAttachedClients, ebpfExtensionHookGetNextAttachedClient_null,
      ebpfExtensionHookGetAttachedClient_listRep hl.1]
  | cons x xs =>
    obtain ⟨hpx, -, hseg⟩ := hl.1.2
    have hx0 : x ≠ 0 := fun e => h0 (e ▸ List.mem_cons_self x xs)
    have hp : p ∉ xs := fun h => (List.nodup_cons.mp hnd).1 (List.mem_cons_of_mem x h)
    have hrest : iterateAttachedClients p fuel x m = (xs, m) :=
      iterateAttachedClients_of_seg hp (fun h => h0 (List.mem_cons_of_mem x h)) hseg hx0
        (by simp at hf; omega)
    simp [iterateAttachedClients, ebpfExtensionHookGetNextAttachedClient_null,
      ebpfExtensionHookGetAttachedClient_listRep hl.1, hx0, hrest]

end Iterate

/-! ## 操作の列 -/

/--
一つの provider `hd` の上で、操作を一つずつ終わるまで走らせて着く状態。`L` は attach が成功して
detach がまだの client を attach の成功した順に並べたもので、C にはない（ghost）。

* attach は `hd` への attach で、どこで失敗してもよい。成功すれば `*provider_binding_context` に
  書かれた client を `L` の最後に足す
* detach は `L` にある client に走り、その client を `L` から除く
* 完了の work item と binding context の後片付けは、どの client にも走りうる
-/
inductive SeqReach (cb : AttachCallback) (hd : Nat) : Memory → List Nat → Prop
  | register {allocOk : Bool} {nmrStatus st : NtStatus} {m₀ m : Memory} :
      ebpfExtensionHookProviderRegister allocOk nmrStatus m₀ = (st, hd, m) → ntSuccess st = true →
      SeqReach cb hd m []
  | attach {m : Memory} {L : List Nat} {env : AttachEnv} {args : AttachClientArgs} {r : AttachClientResult} :
      SeqReach cb hd m L → args.providerContext = hd →
      ebpfExtensionHookProviderAttachClient cb env args m = some r →
      SeqReach cb hd r.mem (if ntSuccess r.status then L ++ r.providerBindingContext.toList else L)
  | detach {m m' : Memory} {L : List Nat} {c : Nat} {st : NtStatus} :
      SeqReach cb hd m L → c ∈ L → ebpfExtensionHookProviderDetachClient c m = some (st, m') →
      SeqReach cb hd m' (L.erase c)
  | completion {m m' : Memory} {L : List Nat} {c : Nat} :
      SeqReach cb hd m L → ebpfExtensionDetachClientCompletion c m = some m' → SeqReach cb hd m' L
  | cleanup {m : Memory} {L : List Nat} {c : Nat} :
      SeqReach cb hd m L → SeqReach cb hd (ebpfExtensionHookProviderCleanupBindingContext c m) L

/-- 操作の列が保つこと：リストの形と、リストの entry が client の record であること。 -/
structure SeqInv (hd : Nat) (m : Memory) (L : List Nat) : Prop where
  clientList : ClientList m hd L
  isClient : ∀ x ∈ L, (m.readClient x).isSome

namespace SeqInv

variable {hd : Nat} {m m' : Memory} {L : List Nat}

theorem le_lastAddr (hi : SeqInv hd m L) {x : Nat} (hx : x ∈ L) : x ≤ m.lastAddr :=
  (hi.clientList.2 x (List.mem_cons_of_mem hd hx)).2

theorem of_kept (hi : SeqInv hd m L) (hk : ClientsKept m m') (hl : ClientList m' hd L) : SeqInv hd m' L :=
  ⟨hl, fun x hx => hk.isClient x (hi.le_lastAddr hx) (hi.isClient x hx)⟩

theorem register {allocOk : Bool} {nmrStatus st : NtStatus} {m₀ : Memory}
    (h : ebpfExtensionHookProviderRegister allocOk nmrStatus m₀ = (st, hd, m)) (hs : ntSuccess st = true) :
    SeqInv hd m [] :=
  ⟨(ebpfExtensionHookProviderRegister_clientList h hs).2, fun _ h => absurd h (List.not_mem_nil _)⟩

/-- attach の後。前からある client の record は変わらない。 -/
theorem attach {cb : AttachCallback} {env : AttachEnv} {args : AttachClientArgs} {r : AttachClientResult}
    (hi : SeqInv hd m L) (hpc : args.providerContext = hd)
    (h : ebpfExtensionHookProviderAttachClient cb env args m = some r) :
    SeqInv hd r.mem (if ntSuccess r.status then L ++ r.providerBindingContext.toList else L) ∧
      ClientsKept m r.mem := by
  cases hs : ntSuccess r.status
  · have hu := (ebpfExtensionHookProviderAttachClient_unwound h hs).1
    exact ⟨hi.of_kept hu.clientsKept (hu.clientList hi.clientList), hu.clientsKept⟩
  · obtain ⟨t, -, -, -, hpbc, hl, hpool⟩ := ebpfExtensionHookProviderAttachClient_success hi.clientList hpc h hs
    have hlast : m.lastAddr + 1 ≤ r.mem.lastAddr := (hl.2 (m.lastAddr + 1) (by simp)).2
    have hk : ClientsKept m r.mem :=
      ClientsKept.of_pool (fun x hx => by rw [hpool]; exact Memory.withNewClient_pool_old hx) (by omega)
    refine ⟨⟨by simpa [hpbc] using hl, fun x hx => ?_⟩, hk⟩
    simp only [if_true, hpbc, Option.toList_some, List.mem_append, List.mem_singleton] at hx
    rcases hx with hx | rfl
    · exact hk.isClient x (hi.le_lastAddr hx) (hi.isClient x hx)
    · simp [Memory.readClient, hpool]

theorem detach {c : Nat} {st : NtStatus} (hi : SeqInv hd m L) (hc : c ∈ L)
    (h : ebpfExtensionHookProviderDetachClient c m = some (st, m')) :
    SeqInv hd m' (L.erase c) ∧ ClientsKept m m' := by
  obtain ⟨lc, hr⟩ := Option.isSome_iff_exists.mp (hi.isClient c hc)
  obtain ⟨links, hd', hl, -⟩ := ebpfExtensionHookProviderDetachClient_clientList hi.clientList hc hr
  rw [hd'] at h
  cases h
  have hk : ClientsKept m (ioQueueWorkItem lc.detachWorkItem
      { m with links, lock := exReleaseSpinLockExclusive (exAcquireSpinLockExclusive m.lock) }) :=
    ClientsKept.of_pool (fun _ _ => rfl) le_rfl
  exact ⟨⟨hl, fun x hx => hk.isClient x (hi.le_lastAddr (List.mem_of_mem_erase hx))
    (hi.isClient x (List.mem_of_mem_erase hx))⟩, hk⟩

theorem completion {c : Nat} (hi : SeqInv hd m L) (h : ebpfExtensionDetachClientCompletion c m = some m') :
    SeqInv hd m' L ∧ ClientsKept m m' :=
  have ⟨hk, hlinks, hlast⟩ := ebpfExtensionDetachClientCompletion_kept h
  ⟨hi.of_kept hk (hi.clientList.frame (fun x _ => by rw [hlinks]) hlast.ge), hk⟩

theorem cleanup {c : Nat} (hi : SeqInv hd m L) :
    SeqInv hd (ebpfExtensionHookProviderCleanupBindingContext c m) L ∧
      ClientsKept m (ebpfExtensionHookProviderCleanupBindingContext c m) := by
  have hk : ClientsKept m (ebpfExtensionHookProviderCleanupBindingContext c m) :=
    ebpfExtensionHookProviderCleanupBindingContext_kept
  refine ⟨hi.of_kept hk (hi.clientList.frame (fun x _ => ?_) hk.lastAddr_le), hk⟩
  unfold ebpfExtensionHookProviderCleanupBindingContext
  split_ifs <;> rfl

end SeqInv

/-- 操作の列で着くどの状態でも `SeqInv`。 -/
theorem SeqReach.inv {cb : AttachCallback} {hd : Nat} {m : Memory} {L : List Nat} (h : SeqReach cb hd m L) :
    SeqInv hd m L := by
  induction h with
  | register h hs => exact SeqInv.register h hs
  | attach _ hpc h ih => exact (ih.attach hpc h).1
  | detach _ hc h ih => exact (ih.detach hc h).1
  | completion _ h ih => exact (ih.completion h).1
  | cleanup _ ih => exact ih.cleanup.1

/--
一つずつ走らせた操作の列のどの状態でも、リストは正しい環状の双方向リストで（どの entry `e` でも
`e.Flink.Blink = e`、`e.Blink.Flink = e`）、前からたどると `L`（attach が成功して detach がまだの client、
attach の順）になる。`ebpf_extension_hook_get_attached_client` は `L` の先頭（空なら `NULL`）を返し、
`NULL` から始めて結果を渡し直す `ebpf_extension_hook_get_next_attached_client` の繰り返しは、`L` の
client を一度ずつ順に返して `NULL` で止まる。どの呼び出しもメモリを変えない。
-/
theorem seqReach_clientList {cb : AttachCallback} {hd : Nat} {m : Memory} {L : List Nat}
    (h : SeqReach cb hd m L) :
    ClientList m hd L ∧
    (∀ e ∈ hd :: L, (m.links (m.links e).flink).blink = e ∧ (m.links (m.links e).blink).flink = e) ∧
    walk m.links hd (L.length + 1) (m.links hd).flink = L ∧
    ebpfExtensionHookGetAttachedClient hd m = (L.headD 0, m) ∧
    ∀ fuel, L.length < fuel → iterateAttachedClients hd fuel 0 m = (L, m) := by
  have hl := h.inv.clientList
  exact ⟨hl, fun e he => hl.1.flink_blink he, walk_eq_of_listRep hl.1 (Nat.lt_succ_self _),
    ebpfExtensionHookGetAttachedClient_listRep hl.1, fun _ hf => iterateAttachedClients_clientList hl hf⟩

/-! ## attach parameter の排他 -/

/--
attach parameter の列の排他：先頭 `n` バイトで見てどれも違い、wildcard `W` と同じものがあれば
それが唯一の要素。
-/
def Exclusive (n : Nat) (W : Bytes) (params : List Bytes) : Prop :=
  (params.map (List.take n)).Nodup ∧ ∀ q ∈ params, q.take n = W.take n → params.length = 1

instance {n : Nat} {W : Bytes} {params : List Bytes} : Decidable (Exclusive n W params) :=
  inferInstanceAs (Decidable (_ ∧ _))

namespace Exclusive

variable {n : Nat} {W P : Bytes} {ps qs : List Bytes}

theorem nil : Exclusive n W [] := ⟨List.nodup_nil, fun _ h => absurd h (List.not_mem_nil _)⟩

/-- 要素を除いても排他のまま（detach）。 -/
theorem sublist (h : Exclusive n W ps) (hs : List.Sublist qs ps) : Exclusive n W qs := by
  refine ⟨h.1.sublist (hs.map _), fun q hq hw => ?_⟩
  have h1 := h.2 q (hs.subset hq) hw
  have := hs.length_le
  have := List.length_pos_of_mem hq
  omega

/-- 確認が通った parameter を最後に足しても排他のまま（attach）。 -/
theorem snoc (h : Exclusive n W ps) (ha : AttachParameterAdmits n P W ps) : Exclusive n W (ps ++ [P]) := by
  rcases ha with ⟨hP, rfl⟩ | ⟨hP, hq⟩
  · exact ⟨List.nodup_singleton _, fun _ _ _ => rfl⟩
  · refine ⟨?_, fun q hmem hw => ?_⟩
    · rw [List.map_append, List.map_singleton, List.nodup_append]
      refine ⟨h.1, List.nodup_singleton _, ?_⟩
      simp only [List.disjoint_singleton, List.mem_map, not_exists, not_and]
      exact fun q hq' e => (hq q hq').2 e
    · rcases List.mem_append.mp hmem with hq' | hq'
      · exact absurd hw (hq q hq').1
      · obtain rfl := List.mem_singleton.mp hq'
        exact absurd hw hP

end Exclusive

/-- hook の `attach_callback` が、確認の通った client だけを認めること。 -/
def AdmitsOnlyChecked (n : Nat) (W : Bytes) (hd : Nat) (cb : AttachCallback) : Prop :=
  ∀ M a, cb M a = .success →
    (ebpfExtensionHookCheckAttachParameter n (effectiveAttachParameter W (M.clientAt a)) W hd M).1 = .success

/-- 成功した attach で足される client の attach parameter は、`attach_callback` の時に確認を通っている。 -/
theorem attachParameters_attach_success {cb : AttachCallback} {env : AttachEnv} {args : AttachClientArgs}
    {m : Memory} {r : AttachClientResult} {hd n : Nat} {W : Bytes} {L : List Nat}
    (hcb : AdmitsOnlyChecked n W hd cb) (hi : SeqInv hd m L) (hpc : args.providerContext = hd)
    (h : ebpfExtensionHookProviderAttachClient cb env args m = some r) (hs : ntSuccess r.status = true) :
    ∃ P, attachParameters W r.mem (L ++ r.providerBindingContext.toList) = attachParameters W m L ++ [P] ∧
      AttachParameterAdmits n P W (attachParameters W m L) := by
  obtain ⟨t, -, hcbs, -, hpbc, -, hpool⟩ := ebpfExtensionHookProviderAttachClient_success hi.clientList hpc h hs
  have hL : ∀ x ∈ L, x ≤ m.lastAddr := fun x hx => hi.le_lastAddr hx
  have hkM : ClientsKept m (m.withNewClient (dispatchedRecord args t (m.lastWorkItem + 1))).allocateWorkItem :=
    ClientsKept.of_pool (fun x hx => Memory.withNewClient_pool_old hx) (by simp [Memory.allocateWorkItem])
  have hadm := (ebpfExtensionHookCheckAttachParameter_success_iff hi.clientList.callbackMemory n _ W).mp
    (hcb _ _ hcbs)
  rw [Memory.clientAt_allocateWorkItem, Memory.clientAt_withNewClient, hkM.attachParameters_eq hL] at hadm
  refine ⟨_, ?_, hadm⟩
  rw [hpbc, Option.toList_some, attachParameters, List.map_append, ← attachParameters,
    (hi.attach hpc h).2.attachParameters_eq hL]
  simp [Memory.clientAt, hpool]

/--
`attach_callback` が確認の通った client だけを認めるなら、一つずつ走らせた操作の列のどの状態でも、
リストの client の attach parameter はどれも違い、wildcard の client がいればそれだけがつながっている。
どの順に来ても、間にどんな detach があっても。
-/
theorem seqReach_exclusive {cb : AttachCallback} {hd n : Nat} {W : Bytes} {m : Memory} {L : List Nat}
    (hcb : AdmitsOnlyChecked n W hd cb) (h : SeqReach cb hd m L) : Exclusive n W (attachParameters W m L) := by
  induction h with
  | register => exact Exclusive.nil
  | @attach m L env args r hr hpc h ih =>
    have hi := hr.inv
    by_cases hs : ntSuccess r.status = true
    · obtain ⟨P, he, ha⟩ := attachParameters_attach_success hcb hi hpc h hs
      simpa only [hs, if_true, he] using ih.snoc ha
    · simp only [hs, Bool.false_eq_true, if_false]
      rwa [(hi.attach hpc h).2.attachParameters_eq fun x hx => hi.le_lastAddr hx]
  | @detach m m' L c st hr hc h ih =>
    have hi := hr.inv
    rw [(hi.detach hc h).2.attachParameters_eq fun x hx => hi.le_lastAddr (List.mem_of_mem_erase hx)]
    exact ih.sublist ((List.erase_sublist c L).map _)
  | @completion m m' L c hr h ih =>
    rwa [(hr.inv.completion h).2.attachParameters_eq fun x hx => hr.inv.le_lastAddr hx]
  | @cleanup m L c hr ih =>
    rwa [hr.inv.cleanup.2.attachParameters_eq fun x hx => hr.inv.le_lastAddr hx]

/-! ## 走らせてみる -/

/-- Modelled from the spec: attach parameter を確かめるだけの hook の `attach_callback`。 -/
def checkingCallback (n : Nat) (W : Bytes) (hd : Nat) : AttachCallback := fun M a =>
  (ebpfExtensionHookCheckAttachParameter n (effectiveAttachParameter W (M.clientAt a)) W hd M).1

theorem admitsOnlyChecked_checkingCallback {n : Nat} {W : Bytes} {hd : Nat} :
    AdmitsOnlyChecked n W hd (checkingCallback n W hd) := fun _ _ h => h

/-- attach parameter `[1, 2, 3]` の client を provider `1` に attach する引数。 -/
def sameParameterArgs : AttachClientArgs := ⟨0, 1, 0, ⟨some [1, 2, 3]⟩, 0, some ⟨0⟩, some 0, some 0⟩

/-- attach parameter `[4, 5, 6]` の client を provider `1` に attach する引数。 -/
def otherParameterArgs : AttachClientArgs := ⟨0, 1, 0, ⟨some [4, 5, 6]⟩, 0, some ⟨0⟩, some 0, some 0⟩

/-- 空のメモリで provider を register し、同じ parameter の client を二度 attach する。二度目は断られる。 -/
theorem seqReach_sameParameterTwice : ∃ m, SeqReach (checkingCallback 3 [0, 0, 0] 1) 1 m [2] :=
  have h0 := @SeqReach.register (checkingCallback 3 [0, 0, 0] 1) 1 true statusSuccess statusSuccess Memory.empty _
    rfl rfl
  have h1 := @SeqReach.attach _ _ _ _ ⟨true, true⟩ sameParameterArgs _ h0 rfl rfl
  ⟨_, @SeqReach.attach _ _ _ _ ⟨true, true⟩ sameParameterArgs _ h1 rfl rfl⟩

theorem seqReach_clientList_sameParameterTwice :
    ∃ m, SeqReach (checkingCallback 3 [0, 0, 0] 1) 1 m [2] ∧
      (ClientList m 1 [2] ∧
      (∀ e ∈ [1, 2], (m.links (m.links e).flink).blink = e ∧ (m.links (m.links e).blink).flink = e) ∧
      walk m.links 1 ([2].length + 1) (m.links 1).flink = [2] ∧
      ebpfExtensionHookGetAttachedClient 1 m = ([2].headD 0, m) ∧
      ∀ fuel, [2].length < fuel → iterateAttachedClients 1 fuel 0 m = ([2], m)) :=
  have ⟨m, h⟩ := seqReach_sameParameterTwice
  ⟨m, h, seqReach_clientList h⟩

theorem seqReach_exclusive_sameParameterTwice :
    ∃ m, AdmitsOnlyChecked 3 [0, 0, 0] 1 (checkingCallback 3 [0, 0, 0] 1) ∧
      SeqReach (checkingCallback 3 [0, 0, 0] 1) 1 m [2] ∧
      Exclusive 3 [0, 0, 0] (attachParameters [0, 0, 0] m [2]) :=
  have ⟨m, h⟩ := seqReach_sameParameterTwice
  ⟨m, admitsOnlyChecked_checkingCallback, h, seqReach_exclusive admitsOnlyChecked_checkingCallback h⟩

end EbpfExt
