import EbpfExt.Concurrent.Iteration
import EbpfExt.Concurrent.Progress

/-!
# たどる順はつないだ順

`ebpf_extension_hook_get_next_attached_client` でリストをたどる thread は、途中で client が detach されても、
`InsertTailList` がつないだ順に前へしか進まない。外された client の `Flink` は外されたときのまま残るが、
それが指すのは、外されたときリストでその後ろにいた client、つまり後からつながった client である。

* `OrderInv` — 一度つながった client をつないだ順に並べた `order` について、どの `Flink` も head か、
  `order` で後ろの client を指す
* `Inv.orderStep` — 一つの step がリストのまわりとたどる thread について変えうること
* `HistOk` — たどる thread が受け取った client は `order` の部分列で、最後に受け取った client より前にある
* `run_executedPart` — run は最後まで進む頭の部分を走らせて止まり、受け取る client はその部分で受け取ったもの
* `run_received_sublist` — register の直後から走らせると、run が途中で止まっても、たどる thread が受け取る
  client の並びは、走らせた部分で `InsertTailList` がつないだ client の並びの部分列
-/

namespace EbpfExt

open scoped List

variable {cb : AttachCallback} {hd : Nat} {s s' : Sys}

/-! ## run の中でつないだ client と、受け取った client -/

/-- `InsertTailList` がつなぐ client。 -/
def Event.insertedClient : Event → Option Nat
  | .attachInsert a => some a
  | _ => none

/-- events の中で `InsertTailList` がつないだ client、つないだ順。 -/
def insertions (es : List Event) : List Nat := es.filterMap Event.insertedClient

/-- step `e` の後で、たどる thread `t` が `ebpf_extension_hook_get_next_attached_client` から受け取った client。 -/
def receivedBy (t : Nat) (e : Event) (s' : Sys) : List Nat :=
  match e, s'.iterators[t]? with
  | .iterate u, some (.cursor c) => if u = t then [c] else []
  | _, _ => []

/-- events を走らせるあいだに、たどる thread `t` が受け取った client、受け取った順。 -/
def received (cb : AttachCallback) (hd t : Nat) (s : Sys) : List Event → List Nat
  | [] => []
  | e :: es =>
    match step cb hd s e with
    | .next s' => receivedBy t e s' ++ received cb hd t s' es
    | _ => []

@[simp] theorem insertions_cons (e : Event) (es : List Event) :
    insertions (e :: es) = e.insertedClient.toList ++ insertions es := by
  cases e <;> rfl

theorem received_cons {t : Nat} {e : Event} {es : List Event} (h : step cb hd s e = .next s') :
    received cb hd t s (e :: es) = receivedBy t e s' ++ received cb hd t s' es := by
  simp only [received, h]

theorem receivedBy_of_ne {t : Nat} {e : Event} (he : e ≠ .iterate t) : receivedBy t e s' = [] := by
  unfold receivedBy
  split
  · rename_i u _ _
    exact if_neg fun (h : u = t) => he (h ▸ rfl)
  · rfl

/-! ## つないだ順の並び -/

/-- `x` の `Flink` は head か、`order` で `x` より後ろの client を指す。 -/
def FlinkLater (hd : Nat) (s : Sys) (order : List Nat) (x : Nat) : Prop :=
  (s.mem.links x).flink = hd ∨ [x, (s.mem.links x).flink] <+ order

theorem FlinkLater.mono {order order' : List Nat} {x : Nat} (h : FlinkLater hd s order x)
    (hl : s'.mem.links x = s.mem.links x) (ho : order <+ order') : FlinkLater hd s' order' x := by
  unfold FlinkLater
  rw [hl]
  exact h.imp_right (·.trans ho)

/-- 一度つながった client を、つないだ順に並べた `order` についての不変条件。 -/
structure OrderInv (hd : Nat) (s : Sys) (order : List Nat) : Prop where
  nodup : order.Nodup
  /-- `order` にいるのは、一度つながった client。 -/
  mem_iff : ∀ x, x ∈ order ↔ (s.phase x).linked = true
  /-- リストは `order` の部分列。 -/
  attached : s.attached <+ order
  /-- 外された client の `Flink` は、head か `order` で後ろの client を指す。 -/
  unlinked : ∀ x, (s.phase x).linked = true → s.phase x ≠ .attached → FlinkLater hd s order x

/-- リストにある client の `Flink` はリストの次を指すので、一度つながった client はどれも `FlinkLater`。 -/
theorem OrderInv.flinkLater {order : List Nat} (ho : OrderInv hd s order) (hi : Inv hd s) {x : Nat}
    (hx : (s.phase x).linked = true) : FlinkLater hd s order x := by
  by_cases ha : s.phase x = .attached
  · obtain ⟨xs, ys, hL⟩ := List.append_of_mem ((hi.attached_iff x).mpr ha)
    have hrep := hi.clientList.1
    rw [hL] at hrep
    obtain ⟨-, hq⟩ := listRep_split hrep
    cases ys with
    | nil => exact .inl hq.1
    | cons y ys =>
      refine .inr (List.Sublist.trans ?_ (hL ▸ ho.attached))
      rw [hq.1]
      exact (((List.nil_sublist ys).cons₂ y).cons₂ x).trans (List.sublist_append_right xs _)
  · exact ho.unlinked x hx ha

/-- register した直後は、何もつながっていない。 -/
theorem OrderInv.initial (m : Memory) (n k : Nat) : OrderInv hd (Sys.initial m n k) [] :=
  ⟨List.nodup_nil, fun _ => by simp [Sys.initial, Phase.linked], .slnil,
    fun _ h => by simp [Sys.initial, Phase.linked] at h⟩

/-! ## 一つの step -/

/-- 一つの step がリストのまわりとたどる thread について変えうること。 -/
structure OrderStep (s s' : Sys) (e : Event) : Prop where
  /-- 新しくつながるのは `InsertTailList` の client だけで、つながった client は戻らない。 -/
  linked_iff : ∀ x, (s'.phase x).linked = true ↔ (s.phase x).linked = true ∨ e.insertedClient = some x
  /-- `InsertTailList` がつなぐ client は、まだ一度もつながっていない。 -/
  fresh : ∀ a, e.insertedClient = some a → (s.phase a).linked = false
  /-- リストは、つないだ client を最後に足すか、client を外すだけ。 -/
  attached : s'.attached <+ s.attached ++ e.insertedClient.toList
  /-- リストの外の client の `LIST_ENTRY` は書き換えない。 -/
  frame : ∀ x, (s'.phase x).linked = true → s'.phase x ≠ .attached →
    (s.phase x).linked = true ∧ s'.mem.links x = s.mem.links x
  /-- たどる thread `t` を動かすのは、`t` の `iterate` だけ。 -/
  iterators : ∀ t, s'.iterators[t]? ≠ s.iterators[t]? → e = .iterate t

/-- phase も `LIST_ENTRY` もリストも変えず、たどる thread は自分のものだけを動かす step。 -/
theorem OrderStep.of_eq {e : Event} (he : e.insertedClient = none) (hp : s'.phase = s.phase)
    (hl : s'.mem.links = s.mem.links) (ha : s'.attached = s.attached)
    (hit : ∀ t, s'.iterators[t]? ≠ s.iterators[t]? → e = .iterate t) : OrderStep s s' e :=
  ⟨fun x => by simp [hp, he], fun _ h => by simp [he] at h, by simp [ha, he],
    fun x hx _ => ⟨hp ▸ hx, by rw [hl]⟩, hit⟩

/--
client `a` の phase を `p` に変える step。一度つながったかどうかを変えず、一度つながった client の
`LIST_ENTRY` を書き換えなければ、リストのまわりは変わらない。
-/
theorem OrderStep.update {e : Event} (he : e.insertedClient = none) {a : Nat} {p : Phase} {m' : Memory}
    (hlk : p.linked = (s.phase a).linked) (hl : ∀ x, (s.phase x).linked = true → m'.links x = s.mem.links x) :
    OrderStep s { s with mem := m', phase := Function.update s.phase a p } e := by
  have hlinked : ∀ x, (Function.update s.phase a p x).linked = (s.phase x).linked := fun x => by
    by_cases hxa : x = a
    · subst hxa
      rw [Function.update_same, hlk]
    · rw [Function.update_noteq hxa]
  refine ⟨fun x => ?_, fun _ h => by simp [he] at h, by simp [he], fun x hx _ => ?_,
    fun _ h => absurd rfl h⟩
  · simp [hlinked, he]
  · have hx' : (s.phase x).linked = true := (hlinked x).symm.trans hx
    exact ⟨hx', hl x hx'⟩

/-- たどる thread `t` の step は、`t` だけを動かす。 -/
theorem orderStep_iterate {t : Nat} (h : EbpfExt.step cb hd s (.iterate t) = .next s') : OrderStep s s' (.iterate t) := by
  obtain ⟨c, -, rfl⟩ := step_iterate h
  refine OrderStep.of_eq (by rfl) rfl rfl rfl fun u hu => ?_
  by_cases hut : u = t
  · rw [hut]
  · exact absurd (List.getElem?_set_ne (Ne.symm hut)) hu

section Step

variable (hi : Inv hd s)
include hi

/-- `InsertTailList` は `a` をつなぎ、書き換えるのはリストの entry と `a` だけ。 -/
theorem Inv.orderStep_attachInsert {a : Nat} (h : EbpfExt.step cb hd s (.attachInsert a) = .next s') :
    OrderStep s s' (.attachInsert a) := by
  obtain ⟨hp, M, hins, rfl⟩ := step_attachInsert h
  obtain ⟨hnot, -, -⟩ := hi.inserting_not_mem hp
  obtain ⟨links, hlinks, -⟩ := insertTailList_listRep hi.clientList.1 hnot
  rw [attachClientInsert_eq, hlinks, Option.map_some', Option.some.injEq] at hins
  subst hins
  refine ⟨fun x => ?_, fun a' h => ?_, by simp [Event.insertedClient], fun x hx hx' => ?_,
    fun _ h => absurd rfl h⟩ <;> dsimp only [Event.insertedClient] at *
  · by_cases hxa : x = a
    · subst hxa
      simp [Phase.linked]
    · simp [Function.update_noteq hxa, Ne.symm hxa]
  · cases h
    rw [hp]
    rfl
  · have hxa : x ≠ a := fun h => hx' (by rw [h, Function.update_same])
    rw [Function.update_noteq hxa] at hx hx'
    have hxhd := (hi.addr fun h => by rw [h] at hx; cases hx).2.1
    have hxL : x ∉ hd :: s.attached := by
      rw [List.mem_cons, not_or, hi.attached_iff]
      exact ⟨hxhd, hx'⟩
    have htail := (hi.clientList.1.links_mem (List.mem_cons_self hd s.attached)).2
    exact ⟨hx, insertTailList_of_ne hlinks hxhd (fun h => hxL (h ▸ htail)) hxa⟩

/-- detach は `c` をリストから外し、書き換えるのは前後の entry だけで、`c` の `LIST_ENTRY` はそのまま。 -/
theorem Inv.orderStep_detach {c : Nat} (h : EbpfExt.step cb hd s (.detach c) = .next s') : OrderStep s s' (.detach c) := by
  obtain ⟨hp, st, m, hdet, rfl⟩ := step_detach h
  have hc : c ∈ s.attached := (hi.attached_iff c).mpr hp
  obtain ⟨links, hdet', -, hcl, hframe⟩ := hi.detachClient hp
  simp only [hdet', Option.some.injEq, Prod.mk.injEq] at hdet
  obtain ⟨-, rfl⟩ := hdet
  have hnb := hi.clientList.1.links_mem (List.mem_cons_of_mem hd hc)
  refine ⟨fun x => ?_, fun _ h => (by cases h), by simpa [Event.insertedClient] using List.erase_sublist c s.attached,
    fun x hx hx' => ?_, fun _ h => absurd rfl h⟩ <;> dsimp only [Event.insertedClient] at *
  · by_cases hxc : x = c
    · subst hxc
      simp [hp, Phase.linked]
    · simp [Function.update_noteq hxc]
  · by_cases hxc : x = c
    · subst hxc
      exact ⟨by rw [hp]; rfl, hcl⟩
    · rw [Function.update_noteq hxc] at hx hx'
      have hxL : x ∉ hd :: s.attached := by
        rw [List.mem_cons, not_or, hi.attached_iff]
        exact ⟨(hi.addr fun h => by rw [h] at hx; cases hx).2.1, hx'⟩
      exact ⟨hx, hframe x (fun h => hxL (h ▸ hnb.2)) (fun h => hxL (h ▸ hnb.1))⟩

/-- どの event の step も `OrderStep`。 -/
theorem Inv.orderStep {e : Event} (h : EbpfExt.step cb hd s e = .next s') : OrderStep s s' e := by
  cases e with
  | attachBegin env args =>
    rcases step_attachBegin h with rfl | ⟨c, -, rfl⟩ | ⟨c, -, -, rfl⟩
    · exact OrderStep.of_eq (by rfl) rfl rfl rfl fun _ h => absurd rfl h
    all_goals
      have hn := hi.phase_fresh _ (Nat.lt_succ_self s.mem.lastAddr)
      refine OrderStep.update (by rfl) (by rw [hn]; rfl) fun x hx => ?_
      have := (hi.addr fun h => by rw [h] at hx; cases hx).2.2
      simp [this]
  | attachCallback a =>
    obtain ⟨hp, ⟨-, rfl⟩ | rfl⟩ := step_attachCallback h <;>
      exact OrderStep.update (by rfl) (by rw [hp]; rfl) fun _ _ => by simp
  | attachInsert a => exact hi.orderStep_attachInsert h
  | detach c => exact hi.orderStep_detach h
  | completionBegin c =>
    obtain ⟨hp, rfl⟩ := step_completionBegin h
    exact OrderStep.update (by rfl) (by rw [hp]; rfl) fun _ _ => rfl
  | completionEnd c =>
    obtain ⟨w, hp, -, rfl⟩ := step_completionEnd h
    exact OrderStep.update (by rfl) (by rw [hp]; rfl) fun _ _ => rfl
  | cleanup c =>
    obtain ⟨hp, rfl⟩ := step_cleanup h
    exact OrderStep.update (by rfl) (by rw [hp]; rfl) fun _ _ => by simp
  | lookup t =>
    obtain ⟨-, rfl⟩ := step_lookup h
    exact OrderStep.of_eq (by rfl) rfl rfl rfl fun _ h => absurd rfl h
  | lookupNext t =>
    obtain ⟨c, -, rfl⟩ := step_lookupNext h
    exact OrderStep.of_eq (by rfl) rfl rfl rfl fun _ h => absurd rfl h
  | enter t =>
    obtain ⟨c, -, -, ⟨-, -, rfl⟩ | ⟨-, rfl⟩⟩ := step_enter hi h <;>
      exact OrderStep.of_eq (by rfl) rfl rfl rfl fun _ h => absurd rfl h
  | invoke t =>
    obtain ⟨c, -, -, rfl⟩ := step_invoke h
    exact OrderStep.of_eq (by rfl) rfl rfl rfl fun _ h => absurd rfl h
  | leave t =>
    obtain ⟨c, -, -, rfl⟩ := step_leave h
    exact OrderStep.of_eq (by rfl) rfl rfl rfl fun _ h => absurd rfl h
  | iterate t => exact orderStep_iterate h

end Step

/-- つないだ client を `order` の最後に足せば、step の後も `OrderInv`。 -/
theorem OrderInv.step {order : List Nat} (ho : OrderInv hd s order) (hi : Inv hd s) {e : Event}
    (hos : OrderStep s s' e) : OrderInv hd s' (order ++ e.insertedClient.toList) := by
  refine ⟨List.nodup_append.mpr ⟨ho.nodup, ?_, fun a ha hb => ?_⟩, fun x => ?_,
    hos.attached.trans (ho.attached.append (.refl _)), fun x hx hx' => ?_⟩
  · cases e.insertedClient <;> simp
  · have h := hos.fresh a (Option.mem_toList.mp hb)
    rw [(ho.mem_iff a).mp ha] at h
    cases h
  · rw [hos.linked_iff, List.mem_append, ho.mem_iff, Option.mem_toList, Option.mem_def]
  · obtain ⟨hlx, hl⟩ := hos.frame x hx hx'
    exact (ho.flinkLater hi hlx).mono hl (List.sublist_append_left _ _)

/-! ## たどる thread が受け取った client -/

/-- 重なりのない並びで `c` の後ろにある `r` は、`c` より後ろの部分にいる。 -/
theorem mem_of_pair_sublist {c r : Nat} {A B : List Nat} (h : [c, r] <+ A ++ c :: B) (hc : c ∉ A) : r ∈ B := by
  obtain ⟨l₁, l₂, hl, h₁, h₂⟩ := List.sublist_append_iff.mp h
  rcases l₁ with _ | ⟨x, l₁⟩
  · rw [List.nil_append] at hl
    subst hl
    rcases List.sublist_cons_iff.mp h₂ with h₂ | ⟨l, hl, h₂⟩
    · exact h₂.mem (List.mem_cons_of_mem c (List.mem_singleton_self r))
    · cases hl
      exact List.singleton_sublist.mp h₂
  · rw [List.cons_append] at hl
    obtain ⟨rfl, -⟩ := List.cons.inj hl
    exact absurd (h₁.mem (List.mem_cons_self _ _)) hc

/-- たどる thread `t` が受け取った client `hist` と、つないだ順の並び `order` との関係。 -/
structure HistOk (s : Sys) (t : Nat) (order hist : List Nat) : Prop where
  /-- まだ始めていなければ、何も受け取っていない。 -/
  start : s.iterators[t]? = some .start → hist = []
  /-- 最後に受け取ったのが `c` で、それより前に受け取った client は `order` で `c` より前。 -/
  cursor : ∀ c, s.iterators[t]? = some (.cursor c) → ∃ A B h', order = A ++ c :: B ∧ hist = h' ++ [c] ∧ h' <+ A
  sublist : hist <+ order

theorem HistOk.initial (m : Memory) (n k t : Nat) : HistOk (Sys.initial m n k) t [] [] := by
  refine ⟨fun _ => rfl, fun c h => ?_, .slnil⟩
  simp only [Sys.initial, List.getElem?_replicate] at h
  split at h <;> cases h

/-- thread `t` が動かなければ、`order` の後ろに足しても `HistOk`。 -/
theorem HistOk.grow {order hist : List Nat} {t : Nat} (hh : HistOk s t order hist)
    (hit : s'.iterators[t]? = s.iterators[t]?) (more : List Nat) : HistOk s' t (order ++ more) hist := by
  refine ⟨fun h => hh.start (hit ▸ h), fun c h => ?_, hh.sublist.trans (List.sublist_append_left _ _)⟩
  obtain ⟨A, B, h', rfl, rfl, hA⟩ := hh.cursor c (hit ▸ h)
  exact ⟨A, B ++ more, h', by simp, rfl, hA⟩

/-- `order` で `r` より前にある client だけを受け取っていて、いま `r` を受け取った。 -/
theorem HistOk.receive {order hist A B : List Nat} {t r : Nat} (hA : order = A ++ r :: B) (hsub : hist <+ A)
    (hit : s'.iterators[t]? = some (.cursor r)) : HistOk s' t order (hist ++ [r]) := by
  refine ⟨fun h => (by rw [hit] at h; cases h), fun c h => ?_, ?_⟩
  · rw [hit] at h
    cases h
    exact ⟨A, B, hist, hA, rfl, hsub⟩
  · rw [hA]
    exact hsub.append (List.singleton_sublist.mpr (List.mem_cons_self r B))

/--
`ebpf_extension_hook_get_next_attached_client` が `NULL` でない `r` を返せば、`r` は `order` で、thread が
それまでに受け取ったどの client よりも後ろにいる。
-/
theorem HistOk.getNext {order hist : List Nat} {t c : Nat} (hh : HistOk s t order hist) (ho : OrderInv hd s order)
    (hi : Inv hd s) (hc : s.iterators[t]? = some .start ∧ c = 0 ∨ s.iterators[t]? = some (.cursor c))
    (hr : (ebpfExtensionHookGetNextAttachedClient hd c s.mem).1 ≠ 0) :
    ∃ A B, order = A ++ (ebpfExtensionHookGetNextAttachedClient hd c s.mem).1 :: B ∧ hist <+ A := by
  rcases hc with ⟨hst, rfl⟩ | hcur
  · rw [ebpfExtensionHookGetNextAttachedClient_null, ebpfExtensionHookGetAttachedClient_listRep hi.clientList.1]
      at hr ⊢
    cases hL : s.attached with
    | nil => rw [hL] at hr; exact absurd rfl hr
    | cons x l =>
      obtain ⟨A, B, hA⟩ := List.append_of_mem (ho.attached.mem (hL ▸ List.mem_cons_self x l))
      exact ⟨A, B, hA, hh.start hst ▸ List.nil_sublist A⟩
  · obtain ⟨A, B, h', hA, rfl, hsub⟩ := hh.cursor c hcur
    have hlc := (ho.mem_iff c).mp (by rw [hA]; exact List.mem_append_right A (List.mem_cons_self c B))
    have hc0 : c ≠ 0 := fun h => by rw [h, hi.phase_null] at hlc; cases hlc
    rw [ebpfExtensionHookGetNextAttachedClient_of_ne hc0] at hr ⊢
    dsimp only at hr ⊢
    split_ifs at hr ⊢ with hf
    · have hpair : [c, (s.mem.links c).flink] <+ A ++ c :: B := hA ▸ (ho.flinkLater hi hlc).resolve_left hf
      have hcA : c ∉ A := fun h => (List.nodup_append.mp (hA ▸ ho.nodup)).2.2 h (List.mem_cons_self c B)
      obtain ⟨B₁, B₂, rfl⟩ := List.append_of_mem (mem_of_pair_sublist hpair hcA)
      exact ⟨A ++ c :: B₁, B₂, by simp [hA], hsub.append ((List.nil_sublist B₁).cons₂ c)⟩
    · exact absurd rfl hr

/-- 一つの step の後も `HistOk`。受け取った client を足し、つないだ client を `order` に足す。 -/
theorem HistOk.step {order hist : List Nat} {t : Nat} {e : Event} (hh : HistOk s t order hist)
    (ho : OrderInv hd s order) (hi : Inv hd s) (h : EbpfExt.step cb hd s e = .next s') (hos : OrderStep s s' e) :
    HistOk s' t (order ++ e.insertedClient.toList) (hist ++ receivedBy t e s') := by
  by_cases he : e = .iterate t
  · subst he
    obtain ⟨c, hc, rfl⟩ := step_iterate h
    have hlt : t < s.iterators.length := by
      rcases hc with ⟨hc, -⟩ | hc <;> exact (List.getElem?_eq_some_iff.mp hc).1
    simp only [Event.insertedClient, Option.toList_none, List.append_nil]
    split_ifs with hr <;> simp only [receivedBy, List.getElem?_set_self hlt, if_true]
    · exact ⟨fun h => by simp [List.getElem?_set_self hlt] at h, fun _ h => by simp [List.getElem?_set_self hlt] at h,
        by simpa using hh.sublist⟩
    · obtain ⟨A, B, hA, hsub⟩ := hh.getNext ho hi hc hr
      exact HistOk.receive hA hsub (List.getElem?_set_self hlt)
  · rw [receivedBy_of_ne he, List.append_nil]
    exact hh.grow (by_contra fun hne => he (hos.iterators t hne)) _

/-! ## run -/

/-- events を走らせるあいだ、`order` にはつないだ client が、`hist` には受け取った client が足される。 -/
theorem Reach.orderRun {order hist : List Nat} {t : Nat} (hs : Reach cb hd s) (ho : OrderInv hd s order)
    (hh : HistOk s t order hist) {es : List Event} (h : EbpfExt.run cb hd s es = .next s') :
    OrderInv hd s' (order ++ insertions es) ∧
      HistOk s' t (order ++ insertions es) (hist ++ received cb hd t s es) := by
  induction es generalizing s order hist with
  | nil =>
    cases h
    simpa [insertions, received] using ⟨ho, hh⟩
  | cons e es ih =>
    obtain ⟨s₁, h₁, hrun⟩ := run_cons_next h
    have hos := hs.inv.orderStep h₁
    have := ih (hs.step h₁) (ho.step hs.inv hos) (hh.step ho hs.inv h₁ hos) hrun
    rwa [insertions_cons, received_cons h₁, ← List.append_assoc, ← List.append_assoc]

/--
events の run は、最後まで進む頭の部分 `es₁` を走らせ、その次の、進めない step（待つ、`KeBugCheck`、解放した
ブロックに触れる）で止まる。run が最後まで進めば `es₁` は events の全部。たどる thread が受け取る client は、
`es₁` のあいだに受け取ったものだけ。
-/
theorem run_executedPart (s : Sys) (t : Nat) (es : List Event) :
    ∃ es₁ es₂, es = es₁ ++ es₂ ∧ (∃ s', run cb hd s es₁ = .next s') ∧
      (∀ s', run cb hd s es = .next s' → es₂ = []) ∧ received cb hd t s es = received cb hd t s es₁ := by
  induction es generalizing s with
  | nil => exact ⟨[], [], rfl, ⟨s, rfl⟩, fun _ _ => rfl, rfl⟩
  | cons e es ih =>
    cases h₁ : step cb hd s e with
    | next s₁ =>
      obtain ⟨es₁, es₂, rfl, ⟨s', hrun⟩, hall, hrec⟩ := ih s₁
      refine ⟨e :: es₁, es₂, rfl, ⟨s', by rw [run_cons h₁, hrun]⟩, fun s' h => hall s' ?_, ?_⟩
      · rwa [run_cons h₁] at h
      · rw [received_cons h₁, received_cons h₁, hrec]
    | blocked | bugcheck | useAfterFree =>
      refine ⟨[], e :: es, rfl, ⟨s, rfl⟩, fun s' h => ?_, by simp [received, h₁]⟩
      simp [run, h₁] at h

/--
register が成功した直後から、どんな events を走らせても（最後まで進んでも、後片付けの済んだ client から
たどるなどで途中で止まっても）、run が走らせた頭の部分 `es₁` で `InsertTailList` がつないだ client に
重なりはなく、たどる thread `t` が `ebpf_extension_hook_get_next_attached_client` から受け取る client は
`es₁` で受け取ったもので、その並びはつないだ client の並びの部分列。途中でどの client が detach されても、
たどる thread は同じ client を二度受け取らず、つないだ順にしか進まない。
-/
theorem run_received_sublist {allocOk : Bool} {nmrStatus st : NtStatus} {m : Memory} {n k : Nat}
    (hr : ebpfExtensionHookProviderRegister allocOk nmrStatus Memory.empty = (st, hd, m)) (hst : ntSuccess st = true)
    (es : List Event) (t : Nat) :
    ∃ es₁ es₂, es = es₁ ++ es₂ ∧ (∃ s, run cb hd (Sys.initial m n k) es₁ = .next s) ∧
      (∀ s, run cb hd (Sys.initial m n k) es = .next s → es₂ = []) ∧
      received cb hd t (Sys.initial m n k) es = received cb hd t (Sys.initial m n k) es₁ ∧
      (insertions es₁).Nodup ∧ received cb hd t (Sys.initial m n k) es₁ <+ insertions es₁ := by
  obtain ⟨es₁, es₂, hes, ⟨s, hrun⟩, hall, hrec⟩ := @run_executedPart cb hd (Sys.initial m n k) t es
  obtain ⟨ho, hh⟩ := (Reach.init n k hr hst).orderRun (OrderInv.initial m n k) (HistOk.initial m n k t) hrun
  exact ⟨es₁, es₂, hes, ⟨s, hrun⟩, hall, hrec, by simpa using ho.nodup, by simpa using hh.sublist⟩

/--
thread `0` が `2` を受け取った後で `2` と `3` を detach し、`2` の完了の work item と後片付けを済ませてから、
もう一度たどる。最後の step は解放したブロックを読んで止まる。
-/
def cleanedIterationEvents : List Event := iterateAfterCleanupEvents ++ [.iterate 0]

theorem run_received_sublist_cleanedUp :
    run (checkingCallback 3 [0, 0, 0] 1) 1
        (Sys.initial (ebpfExtensionHookProviderRegister true statusSuccess Memory.empty).2.2 0 1)
        cleanedIterationEvents = .useAfterFree ∧
      received (checkingCallback 3 [0, 0, 0] 1) 1 0
        (Sys.initial (ebpfExtensionHookProviderRegister true statusSuccess Memory.empty).2.2 0 1)
        cleanedIterationEvents = [2] ∧
      ∃ es₁ es₂, cleanedIterationEvents = es₁ ++ es₂ ∧
        (∃ s, run (checkingCallback 3 [0, 0, 0] 1) 1
          (Sys.initial (ebpfExtensionHookProviderRegister true statusSuccess Memory.empty).2.2 0 1) es₁ = .next s) ∧
        (∀ s, run (checkingCallback 3 [0, 0, 0] 1) 1
          (Sys.initial (ebpfExtensionHookProviderRegister true statusSuccess Memory.empty).2.2 0 1)
          cleanedIterationEvents = .next s → es₂ = []) ∧
        received (checkingCallback 3 [0, 0, 0] 1) 1 0
          (Sys.initial (ebpfExtensionHookProviderRegister true statusSuccess Memory.empty).2.2 0 1)
          cleanedIterationEvents =
          received (checkingCallback 3 [0, 0, 0] 1) 1 0
            (Sys.initial (ebpfExtensionHookProviderRegister true statusSuccess Memory.empty).2.2 0 1) es₁ ∧
        (insertions es₁).Nodup ∧
        received (checkingCallback 3 [0, 0, 0] 1) 1 0
          (Sys.initial (ebpfExtensionHookProviderRegister true statusSuccess Memory.empty).2.2 0 1) es₁ <+
          insertions es₁ :=
  ⟨rfl, rfl, @run_received_sublist (checkingCallback 3 [0, 0, 0] 1) 1 true statusSuccess _ _ 0 1 rfl rfl
    cleanedIterationEvents 0⟩

end EbpfExt
