import EbpfExt.Concurrent.Preservation

/-!
# 外された client の `LIST_ENTRY` と、着けるどの状態でも成り立つこと

`RemoveEntryList` は外した entry の `Flink` を書き換えない。detach された client の `Flink` は外されたときの
次の entry を指したままで、`ebpf_extension_hook_get_next_attached_client` はそれを読む。`LinkInv` はその
行き先が head か一度つながった client であることを言う。全部の client を呼ぶ hook の探索が `Inv` を保つには
`LinkInv` が要り、`LinkInv` を保つには `Inv` が要るので、帰納法は二つをいっしょに進める。

* `LinkInv.step` — どの event の step も `LinkInv` を保つ
* `Reach.inv`、`Reach.linkInv` — 着けるどの状態でも `Inv` と `LinkInv`
-/

namespace EbpfExt

variable {cb : AttachCallback} {hd : Nat} {s s' : Sys}

/-! ## 一つの step -/

/-- phase と `LIST_ENTRY` を変えずに hook を呼ぶ thread を進める step。済ませる client は一度つながった client。 -/
theorem LinkInv.setInvoker {t : Nat} {pc' : InvokerPc} {m' : Memory} (hli : LinkInv hd s)
    (hl : m'.links = s.mem.links) (hpc' : ∀ c, pc' = .passed c → (s.phase c).linked = true) :
    LinkInv hd { s with mem := m', invokers := s.invokers.set t pc' } := by
  refine ⟨fun x hx hx' => ?_, hli.cursor, fun u c hu => ?_⟩ <;> dsimp only at *
  · unfold FlinkLinked
    rw [hl]
    exact hli.unlinked x hx hx'
  · rw [List.getElem?_set] at hu
    split_ifs at hu with htu hlt
    · exact hpc' c (Option.some.inj hu)
    · exact hli.passed u c hu

/-- 探索の結果（`NULL` なら `idle`、そうでなければ `found`）は、済ませた client ではない。 -/
theorem ite_found_ne_passed {c c' : Nat} : (if c = 0 then InvokerPc.idle else .found c) ≠ .passed c' := by
  split <;> nofun

section Step

variable (hli : LinkInv hd s) (hi : Inv hd s)
include hli hi

/--
一つの step の後でも `LinkInv`：一度つながった client はつながったままで、リストの外の client は前から
一度つながっていて、その `LIST_ENTRY` は変わらない。thread は動かない。
-/
theorem LinkInv.of_step (hlinked : ∀ y, (s.phase y).linked = true → (s'.phase y).linked = true)
    (hx : ∀ x, (s'.phase x).linked = true → s'.phase x ≠ .attached →
      (s.phase x).linked = true ∧ s'.mem.links x = s.mem.links x)
    (hinv : s'.invokers = s.invokers) (hit : s'.iterators = s.iterators) : LinkInv hd s' := by
  refine ⟨fun x hx1 hx2 => ?_, fun t c ht => hlinked c (hli.cursor t c (hit ▸ ht)),
    fun t c ht => hlinked c (hli.passed t c (hinv ▸ ht))⟩
  obtain ⟨hlx, hlinks⟩ := hx x hx1 hx2
  unfold FlinkLinked
  rw [hlinks]
  exact (hli.flinkLinked hi hlx).imp_right (hlinked _)

/--
client `a` の phase を `p` に変える step。一度つながったかどうかを変えず、一度つながった client の
`LIST_ENTRY` を書き換えなければ、`LinkInv` は保たれる。
-/
theorem LinkInv.update {a : Nat} {p : Phase} {m' : Memory} (hlk : p.linked = (s.phase a).linked)
    (hl : ∀ x, (s.phase x).linked = true → m'.links x = s.mem.links x) :
    LinkInv hd { s with mem := m', phase := Function.update s.phase a p } := by
  refine hli.of_step hi (fun y hy => ?_) (fun x hx hx' => ?_) rfl rfl <;> dsimp only at *
  · by_cases hya : y = a
    · subst hya
      rwa [Function.update_same, hlk]
    · rwa [Function.update_noteq hya]
  · by_cases hxa : x = a
    · subst hxa
      rw [Function.update_same, hlk] at hx
      exact ⟨hx, hl x hx⟩
    · rw [Function.update_noteq hxa] at hx
      exact ⟨hx, hl x hx⟩

/-- `InsertTailList` が書き換えるのは、リストの entry と新しい entry だけ。 -/
theorem LinkInv.attachInsert {a : Nat} (h : step cb hd s (.attachInsert a) = .next s') : LinkInv hd s' := by
  obtain ⟨hp, M, hins, rfl⟩ := step_attachInsert h
  obtain ⟨hnot, -, -⟩ := hi.inserting_not_mem hp
  obtain ⟨links, hlinks, -⟩ := insertTailList_listRep hi.clientList.1 hnot
  rw [attachClientInsert_eq, hlinks, Option.map_some', Option.some.injEq] at hins
  subst hins
  refine hli.of_step hi (fun y hy => ?_) (fun x hx hx' => ?_) rfl rfl <;> dsimp only at *
  · by_cases hya : y = a
    · subst hya
      rw [Function.update_same]
      rfl
    · rwa [Function.update_noteq hya]
  · have hxa : x ≠ a := fun h => hx' (by rw [h, Function.update_same])
    rw [Function.update_noteq hxa] at hx hx'
    have hxhd := (hi.addr fun h => by rw [h] at hx; cases hx).2.1
    have hxL : x ∉ hd :: s.attached := by
      rw [List.mem_cons, not_or, hi.attached_iff]
      exact ⟨hxhd, hx'⟩
    have htail := (hi.clientList.1.links_mem (List.mem_cons_self hd s.attached)).2
    exact ⟨hx, insertTailList_of_ne hlinks hxhd (fun h => hxL (h ▸ htail)) hxa⟩

/-- detach が書き換えるのは、前後の entry だけで、外した client の `LIST_ENTRY` はそのまま。 -/
theorem LinkInv.detach {c : Nat} (h : step cb hd s (.detach c) = .next s') : LinkInv hd s' := by
  obtain ⟨hp, st, m, hdet, rfl⟩ := step_detach h
  have hc : c ∈ s.attached := (hi.attached_iff c).mpr hp
  obtain ⟨links, hdet', -, hcl, hframe⟩ := hi.detachClient hp
  simp only [hdet', Option.some.injEq, Prod.mk.injEq] at hdet
  obtain ⟨-, rfl⟩ := hdet
  have hnb := hi.clientList.1.links_mem (List.mem_cons_of_mem hd hc)
  refine hli.of_step hi (fun y hy => ?_) (fun x hx hx' => ?_) rfl rfl <;> dsimp only at *
  · by_cases hyc : y = c
    · subst hyc
      rw [Function.update_same]
      rfl
    · rwa [Function.update_noteq hyc]
  · by_cases hxc : x = c
    · subst hxc
      exact ⟨by rw [hp]; rfl, hcl⟩
    · rw [Function.update_noteq hxc] at hx hx'
      have hxL : x ∉ hd :: s.attached := by
        rw [List.mem_cons, not_or, hi.attached_iff]
        exact ⟨(hi.addr fun h => by rw [h] at hx; cases hx).2.1, hx'⟩
      exact ⟨hx, hframe x (fun h => hxL (h ▸ hnb.2)) (fun h => hxL (h ▸ hnb.1))⟩

/-- たどる thread は、`NULL` か一度つながった client から次を読むので、次も一度つながった client。 -/
theorem LinkInv.iterate {t : Nat} (h : step cb hd s (.iterate t) = .next s') : LinkInv hd s' := by
  obtain ⟨c, hc, rfl⟩ := step_iterate h
  replace hc : c = 0 ∨ (s.phase c).linked = true := hc.imp (·.2) (hli.cursor t c)
  refine ⟨hli.unlinked, fun u c' hu => ?_, hli.passed⟩
  dsimp only at hu
  rw [List.getElem?_set] at hu
  split_ifs at hu with htu hlt hn
  · cases hu
  · obtain rfl : _ = c' := IteratorPc.cursor.inj (Option.some.inj hu)
    exact (hli.getNext_linked hi hc).resolve_left hn
  · exact hli.cursor u c' hu

/--
hook を呼ぶ thread が済ませる client は、見つけた client（enter が失敗した）か、参照を返した client
（leave した）で、どちらも一度つながった client。
-/
theorem LinkInv.enter {t : Nat} (h : step cb hd s (.enter t) = .next s') : LinkInv hd s' := by
  obtain ⟨c, ht, -, ⟨-, -, rfl⟩ | ⟨-, rfl⟩⟩ := step_enter hi h
  · exact hli.setInvoker rfl nofun
  · exact hli.setInvoker rfl fun _ h => InvokerPc.passed.inj h ▸ hi.found t c ht

theorem LinkInv.leave {t : Nat} (h : step cb hd s (.leave t) = .next s') : LinkInv hd s' := by
  obtain ⟨c, ht, -, rfl⟩ := step_leave h
  have hp := (hi.record c).counted (holders_pos ht (show (InvokerPc.invoked c).holds c = true by simp))
  refine hli.setInvoker rfl fun _ h => InvokerPc.passed.inj h ▸ ?_
  rcases hp with hp | hp | ⟨w, hp⟩ <;> rw [hp] <;> rfl

/-- どの event の step も `LinkInv` を保つ。 -/
theorem LinkInv.step {e : Event} (h : EbpfExt.step cb hd s e = .next s') : LinkInv hd s' := by
  cases e with
  | attachBegin env args =>
    rcases step_attachBegin h with rfl | ⟨c, -, rfl⟩ | ⟨c, -, -, rfl⟩
    · exact hli
    all_goals
      have hn := hi.phase_fresh _ (Nat.lt_succ_self s.mem.lastAddr)
      refine hli.update hi (by rw [hn]; rfl) fun x hx => ?_
      have := (hi.addr fun h => by rw [h] at hx; cases hx).2.2
      simp [this]
  | attachCallback a =>
    obtain ⟨hp, ⟨-, rfl⟩ | rfl⟩ := step_attachCallback h <;> exact hli.update hi (by rw [hp]; rfl) fun _ _ => by simp
  | attachInsert a => exact hli.attachInsert hi h
  | detach c => exact hli.detach hi h
  | completionBegin c =>
    obtain ⟨hp, rfl⟩ := step_completionBegin h
    exact hli.update hi (by rw [hp]; rfl) fun _ _ => rfl
  | completionEnd c =>
    obtain ⟨w, hp, -, rfl⟩ := step_completionEnd h
    exact hli.update hi (by rw [hp]; rfl) fun _ _ => rfl
  | cleanup c =>
    obtain ⟨hp, rfl⟩ := step_cleanup h
    exact hli.update hi (by rw [hp]; rfl) fun _ _ => by simp
  | lookup t =>
    obtain ⟨-, rfl⟩ := step_lookup h
    exact hli.setInvoker rfl fun _ h => absurd h ite_found_ne_passed
  | lookupNext t =>
    obtain ⟨c, -, rfl⟩ := step_lookupNext h
    exact hli.setInvoker rfl fun _ h => absurd h ite_found_ne_passed
  | enter t => exact hli.enter hi h
  | invoke t =>
    obtain ⟨c, -, -, rfl⟩ := step_invoke h
    exact hli.setInvoker rfl nofun
  | leave t => exact hli.leave hi h
  | iterate t => exact hli.iterate hi h

end Step

/-! ## 着けるどの状態でも -/

/-- register した直後は、どの client も一度もつながっていない。 -/
theorem LinkInv.initial (m : Memory) (n k : Nat) : LinkInv hd (Sys.initial m n k) := by
  refine ⟨fun _ h => by simp [Sys.initial, Phase.linked] at h, fun t c h => ?_, fun t c h => ?_⟩ <;>
    simp only [Sys.initial, List.getElem?_replicate] at h <;> split at h <;> cases h

/-- 着けるどの状態でも `Inv` と `LinkInv`。 -/
theorem Reach.invs (h : Reach cb hd s) : Inv hd s ∧ LinkInv hd s := by
  induction h with
  | init n k hr hs => exact ⟨Inv.initial n k hr hs, LinkInv.initial _ n k⟩
  | step _ hst ih => exact ⟨ih.1.step ih.2 hst, ih.2.step ih.1 hst⟩

theorem Reach.inv (h : Reach cb hd s) : Inv hd s := h.invs.1

theorem Reach.linkInv (h : Reach cb hd s) : LinkInv hd s := h.invs.2

end EbpfExt
