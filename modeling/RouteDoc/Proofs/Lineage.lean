import Mathlib.Data.List.Count
import Mathlib.Data.List.Nodup
import Mathlib.Data.List.Perm.Subperm
import RouteDoc.Declaration

/-!
# Lineages

The order in which a class and its ancestors are searched is merged from those of its bases.  No class stands in it
twice, so the merge of one order is this order; and where all bases are declared and no class is its own ancestor, the
depth to which the ancestors are followed is more than enough.  A class with one base has that base's lineage after
itself.

* `Declarations.nodup_mergeOrders`, `Declarations.mem_of_mem_mergeOrders` — merging;
* `Declarations.mergeOrders_pair` — merging the order of one base;
* `Declarations.Founded` — the declarations of a program that can be built up;
* `Declarations.ancestryWithin_succ` — deep enough is deep enough;
* `Declarations.lineage_of_only_base` — a class with one base.
-/

namespace RouteDoc.Declarations

/-! ### Merging orders -/

section Merging

variable {α : Type} [DecidableEq α] {lists : List (List α)} {l : List α} {h x : α} {fuel : Nat}

/-- The first free head is the head of a list and stands in no tail. -/
theorem firstFree_eq_some (hfree : firstFree lists = some h) :
    (∃ l ∈ lists, l.head? = some h) ∧ ∀ l ∈ lists, h ∉ l.tail := by
  unfold firstFree at hfree
  refine ⟨?_, fun l hl hin => ?_⟩
  · obtain ⟨l, hl, hhead⟩ := List.mem_filterMap.1 (List.mem_of_find?_eq_some hfree)
    exact ⟨l, hl, hhead⟩
  · have hall := List.find?_some (p := fun h => lists.all fun l => !l.tail.contains h) hfree
    simpa [hin] using List.all_eq_true.1 hall l hl

/-- What is merged comes from the lists. -/
theorem mem_of_mem_mergeOrders (hx : x ∈ mergeOrders fuel lists) : ∃ l ∈ lists, x ∈ l := by
  induction fuel generalizing lists with
  | zero => cases hx
  | succ fuel ih =>
    rw [mergeOrders] at hx
    cases hfree : firstFree lists with
    | none => rw [hfree] at hx; cases hx
    | some h =>
      rw [hfree] at hx
      rcases List.mem_cons.1 hx with rfl | hx
      · obtain ⟨l, hl, hhead⟩ := (firstFree_eq_some hfree).1
        exact ⟨l, hl, List.mem_of_mem_head? hhead⟩
      · obtain ⟨l', hl', hin⟩ := ih hx
        obtain ⟨l, hl, rfl⟩ := List.mem_map.1 (List.mem_filter.1 hl').1
        refine ⟨l, hl, ?_⟩
        split at hin
        · exact List.mem_of_mem_tail hin
        · exact hin

/-- **Nothing is merged twice**: a head that is taken stands in none of the lists that are left. -/
theorem nodup_mergeOrders (fuel : Nat) (lists : List (List α)) : (mergeOrders fuel lists).Nodup := by
  induction fuel generalizing lists with
  | zero => exact List.nodup_nil
  | succ fuel ih =>
    rw [mergeOrders]
    cases hfree : firstFree lists with
    | none => exact List.nodup_nil
    | some h =>
      refine List.nodup_cons.2 ⟨fun hin => ?_, ih _⟩
      obtain ⟨l', hl', hin⟩ := mem_of_mem_mergeOrders hin
      obtain ⟨l, hl, rfl⟩ := List.mem_map.1 (List.mem_filter.1 hl').1
      have htail : h ∉ l.tail := (firstFree_eq_some hfree).2 l hl
      split at hin
      · exact htail hin
      · next hhead =>
        cases l with
        | nil => cases hin
        | cons y l =>
          rcases List.mem_cons.1 hin with rfl | hin
          · exact hhead (beq_self_eq_true _)
          · exact htail hin

theorem mergeOrders_nil (fuel : Nat) : mergeOrders fuel ([] : List (List α)) = [] := by
  cases fuel <;> rfl

/-- One order by itself. -/
theorem mergeOrders_singleton (hl : l.Nodup) (hfuel : l.length ≤ fuel) : mergeOrders fuel [l] = l := by
  induction l generalizing fuel with
  | nil => cases fuel <;> rfl
  | cons x l ih =>
    obtain ⟨hx, hl⟩ := List.nodup_cons.1 hl
    cases fuel with
    | zero => cases hfuel
    | succ fuel =>
      have hfree : firstFree [x :: l] = some x := by simp [firstFree, hx]
      rw [mergeOrders, hfree]
      cases l with
      | nil => simp [mergeOrders_nil]
      | cons y l => simpa using ih hl (Nat.le_of_succ_le_succ hfuel)

/-- **The order of one base**, merged with the base. -/
theorem mergeOrders_pair (hl : (x :: l).Nodup) (hfuel : l.length ≤ fuel) :
    mergeOrders (fuel + 1) [x :: l, [x]] = x :: l := by
  have hx : x ∉ l := (List.nodup_cons.1 hl).1
  have hfree : firstFree [x :: l, [x]] = some x := by simp [firstFree, hx]
  rw [mergeOrders, hfree]
  cases l with
  | nil => simp [mergeOrders_nil]
  | cons y l => simpa using mergeOrders_singleton (List.nodup_cons.1 hl).2 hfuel

end Merging

/-! ### Declarations that can be built up -/

/-- Every base is declared, and no class is an ancestor of itself: classes stand higher than their bases. -/
def Founded (env : Declarations) : Prop :=
  ∃ rank : String → Nat, ∀ id d, env.find? id = some d → ∀ b ∈ declaredBases d, (env.find? b).isSome ∧ rank b < rank id

variable {env : Declarations} {rank : String → Nat} {id x : String} {d c : Declaration} {fuel : Nat}

/-- A class with a body of its own derives from the classes that it lists. -/
theorem declaredBases_of_plain {constructor : Option (List Parameter)} (h : d.kind = .plain constructor) :
    declaredBases d = d.bases := by
  rw [declaredBases, parents, h, List.filterMap_map]
  exact List.filterMap_some

theorem id_of_find? (h : env.find? id = some d) : d.id = id := by
  simpa using List.find?_some h

/-- How many declarations stand lower than a class. -/
def below (env : Declarations) (rank : String → Nat) (id : String) : Nat := env.countP fun d => rank d.id < rank id

theorem below_lt_length (h : env.find? id = some d) : env.below rank id < env.length := by
  refine List.countP_lt_length_iff.2 ⟨d, List.mem_of_find?_eq_some h, ?_⟩
  simp [id_of_find? h]

/-- A declared class that stands lower has fewer below it. -/
theorem below_lt_below (h : env.find? x = some d) (hlt : rank x < rank id) : env.below rank x < env.below rank id := by
  obtain ⟨pre, post, hsplit⟩ := List.append_of_mem (List.mem_of_find?_eq_some h)
  have hmono : ∀ ds : Declarations, ds.below rank x ≤ ds.below rank id := fun ds =>
    List.countP_mono_left fun e _ he => by
      simp only [decide_eq_true_eq] at he ⊢
      exact Nat.lt_trans he hlt
  have hpre := hmono pre
  have hpost := hmono post
  simp only [below, hsplit, List.countP_append] at hpre hpost ⊢
  rw [List.countP_cons_of_neg (by simp [id_of_find? h]), List.countP_cons_of_pos (by simpa [id_of_find? h] using hlt)]
  omega

/-- The orders that the order of a class is merged from: those of its bases, and the bases themselves. -/
def baseOrders (env : Declarations) (fuel : Nat) (d : Declaration) : List (List String) :=
  ((declaredBases d).map (ancestryWithin env fuel) ++ [declaredBases d]).filter (!·.isEmpty)

theorem ancestryWithin_of_find? (h : env.find? id = some d) (fuel : Nat) :
    env.ancestryWithin (fuel + 1) id = id :: mergeOrders (env.length * env.length + 1) (env.baseOrders fuel d) := by
  rw [ancestryWithin, h]
  rfl

theorem ancestryWithin_of_not_found (h : env.find? id = none) (fuel : Nat) : env.ancestryWithin fuel id = [id] := by
  cases fuel with
  | zero => rfl
  | succ fuel => rw [ancestryWithin, h]

/-- A class stands before its ancestors. -/
theorem exists_ancestryWithin (env : Declarations) (fuel : Nat) (id : String) :
    ∃ ancestors, env.ancestryWithin fuel id = id :: ancestors := by
  cases fuel with
  | zero => exact ⟨[], rfl⟩
  | succ fuel =>
    cases h : env.find? id with
    | none => exact ⟨[], ancestryWithin_of_not_found h _⟩
    | some d => exact ⟨_, ancestryWithin_of_find? h fuel⟩

/-- What is merged is a base or stands in the order of one. -/
theorem mem_of_mem_merged {bound : Nat} (hx : x ∈ mergeOrders bound (env.baseOrders fuel d)) :
    ∃ b ∈ declaredBases d, x ∈ env.ancestryWithin fuel b := by
  obtain ⟨l, hl, hin⟩ := mem_of_mem_mergeOrders hx
  rcases List.mem_append.1 (List.mem_filter.1 hl).1 with hl | hl
  · obtain ⟨b, hb, rfl⟩ := List.mem_map.1 hl
    exact ⟨b, hb, hin⟩
  · rw [List.mem_singleton.1 hl] at hin
    obtain ⟨ancestors, hself⟩ := env.exists_ancestryWithin fuel x
    exact ⟨x, hin, hself ▸ List.mem_cons_self⟩

section Ranked

variable (hrank : ∀ id d, env.find? id = some d → ∀ b ∈ declaredBases d, (env.find? b).isSome ∧ rank b < rank id)

include hrank

/-- Every class in an order but the first stands lower, and is declared if the first one is; by induction on the
depth. -/
theorem lower_of_mem (hx : x ∈ env.ancestryWithin fuel id) :
    x = id ∨ (env.find? x).isSome ∧ rank x < rank id := by
  induction fuel generalizing id x with
  | zero => exact .inl (List.mem_singleton.1 hx)
  | succ fuel ih =>
    cases hd : env.find? id with
    | none =>
      rw [ancestryWithin_of_not_found hd] at hx
      exact .inl (List.mem_singleton.1 hx)
    | some d =>
      rw [ancestryWithin_of_find? hd] at hx
      refine (List.mem_cons.1 hx).imp_right fun hx => ?_
      obtain ⟨b, hb, hin⟩ := mem_of_mem_merged hx
      obtain ⟨hdeclared, hlt⟩ := hrank id d hd b hb
      rcases ih hin with rfl | ⟨hx, hlower⟩
      · exact ⟨hdeclared, hlt⟩
      · exact ⟨hx, Nat.lt_trans hlower hlt⟩

/-- **No class stands twice in an order.** -/
theorem nodup_ancestryWithin (fuel : Nat) (id : String) : (env.ancestryWithin fuel id).Nodup := by
  cases fuel with
  | zero => exact List.nodup_singleton id
  | succ fuel =>
    cases hd : env.find? id with
    | none =>
      rw [ancestryWithin_of_not_found hd]
      exact List.nodup_singleton id
    | some d =>
      rw [ancestryWithin_of_find? hd]
      refine List.nodup_cons.2 ⟨fun hin => ?_, nodup_mergeOrders _ _⟩
      obtain ⟨b, hb, hin⟩ := mem_of_mem_merged hin
      have hlt := (hrank id d hd b hb).2
      rcases lower_of_mem hrank hin with rfl | ⟨-, hlower⟩
      · exact Nat.lt_irrefl _ hlt
      · exact Nat.lt_asymm hlower hlt

/-- The classes of an order are declared, so there are no more of them than declarations. -/
theorem length_ancestryWithin_le (hid : (env.find? id).isSome) (fuel : Nat) :
    (env.ancestryWithin fuel id).length ≤ env.length := by
  have hsubset : env.ancestryWithin fuel id ⊆ env.map (·.id) := by
    intro x hx
    have hdeclared : (env.find? x).isSome := by
      rcases lower_of_mem hrank hx with rfl | ⟨hx, -⟩
      · exact hid
      · exact hx
    obtain ⟨d, hd⟩ := Option.isSome_iff_exists.1 hdeclared
    exact List.mem_map.2 ⟨d, List.mem_of_find?_eq_some hd, id_of_find? hd⟩
  simpa using ((nodup_ancestryWithin hrank fuel id).subperm hsubset).length_le

/-- **Deep enough is deep enough**: the ancestors of a class are all found within as many steps as there are classes
below it. -/
theorem ancestryWithin_succ (h : env.below rank id ≤ fuel) :
    env.ancestryWithin (fuel + 1) id = env.ancestryWithin fuel id := by
  induction fuel generalizing id with
  | zero =>
    cases hd : env.find? id with
    | none => rw [ancestryWithin_of_not_found hd, ancestryWithin_of_not_found hd]
    | some d =>
      have hbases : declaredBases d = [] := by
        refine List.eq_nil_iff_forall_not_mem.2 fun b hb => ?_
        obtain ⟨hdeclared, hlt⟩ := hrank id d hd b hb
        obtain ⟨c, hc⟩ := Option.isSome_iff_exists.1 hdeclared
        have hbelow := below_lt_below hc hlt
        omega
      rw [ancestryWithin_of_find? hd, baseOrders, hbases]
      rfl
  | succ fuel ih =>
    cases hd : env.find? id with
    | none => rw [ancestryWithin_of_not_found hd, ancestryWithin_of_not_found hd]
    | some d =>
      have horders : (declaredBases d).map (env.ancestryWithin (fuel + 1)) =
          (declaredBases d).map (env.ancestryWithin fuel) := by
        refine List.map_congr_left fun b hb => ih ?_
        obtain ⟨hdeclared, hlt⟩ := hrank id d hd b hb
        obtain ⟨c, hc⟩ := Option.isSome_iff_exists.1 hdeclared
        have hbelow := below_lt_below hc hlt
        omega
      rw [ancestryWithin_of_find? hd, ancestryWithin_of_find? hd, baseOrders, horders]
      rfl

end Ranked

/-- **A class with one base has the lineage of that base after itself.** -/
theorem lineage_of_only_base (hfounded : env.Founded) {base : String} (hd : env.find? id = some d)
    (hbases : declaredBases d = [base]) : env.lineage id = d :: env.lineage base := by
  obtain ⟨rank, hrank⟩ := hfounded
  obtain ⟨hdeclared, -⟩ := hrank id d hd base (by simp [hbases])
  obtain ⟨c, hc⟩ := Option.isSome_iff_exists.1 hdeclared
  have hbelow : env.below rank base < env.length := below_lt_length hc
  obtain ⟨n, hn⟩ : ∃ n, env.length = n + 1 := ⟨env.length - 1, by omega⟩
  obtain ⟨ancestors, hancestors⟩ := env.exists_ancestryWithin n base
  have hnodup := nodup_ancestryWithin hrank n base
  have hlength := length_ancestryWithin_le hrank hdeclared n
  rw [hancestors] at hnodup hlength
  have horders : env.baseOrders n d = [base :: ancestors, [base]] := by
    rw [baseOrders, hbases, List.map_singleton, hancestors]
    rfl
  have hbound : ancestors.length ≤ env.length * env.length := by
    have hle := Nat.le_mul_self env.length
    rw [List.length_cons] at hlength
    omega
  have hancestry : env.ancestry id = id :: env.ancestry base := by
    rw [ancestry, ancestry, hn, ancestryWithin_of_find? hd, horders, mergeOrders_pair hnodup hbound,
      ancestryWithin_succ hrank (by omega), hancestors]
  rw [lineage, hancestry, List.filterMap_cons, hd]
  rfl

end RouteDoc.Declarations
