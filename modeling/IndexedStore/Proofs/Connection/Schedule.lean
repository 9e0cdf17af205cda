/-
This file proves what does not depend on the order in which operations get their turns.
A schedule only rearranges: the items that get turns are those that were given, and each
reply goes back to the item whose turn gave it. So whatever holds of every sequence of
turns holds of an operation on several items, and what pairs items with their replies may
be read off the turns.
-/

import IndexedStore.Connection.Mutation
import Mathlib.Data.List.Nodup
import Mathlib.Data.List.Perm.Basic

namespace IndexedStore

/-- Where every item has an image, the images stand at the positions of the items. -/
theorem getElem?_filterMap_of_isSome {α β : Type} {image : α → Option β} {items : List α}
    (present : ∀ item ∈ items, (image item).isSome) (position : Nat) :
    (items.filterMap image)[position]? = items[position]?.bind image := by
  induction items generalizing position with
  | nil => rfl
  | cons item rest inductionHypothesis =>
    rw [List.forall_mem_cons] at present
    obtain ⟨own, isOwn⟩ := Option.isSome_iff_exists.mp present.1
    rw [List.filterMap_cons_some isOwn]
    cases position with
    | zero => simp [isOwn]
    | succ position => simpa using inductionHypothesis present.2 position

namespace Schedule

variable {α β : Type} {schedule : Schedule} {items results : List α} {count position turn : Nat}

/-! ### Turns -/

theorem mem_order : position ∈ schedule.order count ↔ position < count :=
  (schedule.perm_range count).mem_iff.trans List.mem_range

@[simp]
theorem length_order : (schedule.order count).length = count :=
  (schedule.perm_range count).length_eq.trans List.length_range

theorem nodup_order : (schedule.order count).Nodup :=
  (schedule.perm_range count).nodup_iff.mpr List.nodup_range

theorem getElem?_arrange :
    (schedule.arrange items)[turn]? = (schedule.order items.length)[turn]?.bind (items[·]?) := by
  refine getElem?_filterMap_of_isSome (fun position member => ?_) turn
  rw [List.getElem?_eq_getElem (mem_order.mp member)]
  rfl

/-- Every position has a turn. -/
theorem isSome_turn (member : position ∈ List.range results.length) :
    results[(schedule.order results.length).idxOf position]?.isSome := by
  have isTurn := List.idxOf_lt_length_of_mem
    ((@mem_order schedule results.length _).mpr (List.mem_range.mp member))
  rw [length_order] at isTurn
  rw [List.getElem?_eq_getElem isTurn]
  rfl

/-- What the turn of an item gives is restored to its position. -/
theorem getElem?_restore (inside : position < results.length) :
    (schedule.restore results)[position]? =
      results[(schedule.order results.length).idxOf position]? := by
  refine (getElem?_filterMap_of_isSome (fun _ => isSome_turn) position).trans ?_
  rw [List.getElem?_range inside, Option.bind_some]

/-! ### Arranging -/

@[simp]
theorem arrange_inOrder : inOrder.arrange items = items := by
  refine List.ext_getElem? fun position => ?_
  rw [getElem?_arrange]
  by_cases inside : position < items.length
  · rw [inOrder, List.getElem?_range inside, Option.bind_some]
  · have isOver := Nat.le_of_not_lt inside
    rw [inOrder, List.getElem?_eq_none (List.length_range.symm ▸ isOver), Option.bind_none,
      List.getElem?_eq_none isOver]

/-- The items that get turns are those that were given. -/
theorem perm_arrange (schedule : Schedule) (items : List α) :
    (schedule.arrange items).Perm items := by
  have turns := (schedule.perm_range items.length).filterMap (items[·]?)
  exact turns.trans (.of_eq arrange_inOrder)

@[simp]
theorem length_arrange : (schedule.arrange items).length = items.length :=
  (schedule.perm_arrange items).length_eq

@[simp]
theorem mem_arrange {item : α} : item ∈ schedule.arrange items ↔ item ∈ items :=
  (schedule.perm_arrange items).mem_iff

theorem arrange_map {change : α → β} :
    schedule.arrange (items.map change) = (schedule.arrange items).map change := by
  refine List.ext_getElem? fun turn => ?_
  rw [getElem?_arrange, List.length_map, List.getElem?_map, getElem?_arrange, Option.map_bind]
  simp only [List.getElem?_map]
  rfl

theorem arrange_zip {others : List β} (sizes : items.length = others.length) :
    schedule.arrange (items.zip others) =
      (schedule.arrange items).zip (schedule.arrange others) := by
  refine List.ext_getElem? fun turn => Option.ext fun entry => ?_
  rw [List.getElem?_zip_eq_some, getElem?_arrange, getElem?_arrange, getElem?_arrange,
    List.length_zip, ← sizes, Nat.min_self]
  cases (schedule.order items.length)[turn]? with
  | none => simp
  | some position => exact List.getElem?_zip_eq_some

/-! ### Restoring -/

@[simp]
theorem length_restore : (schedule.restore results).length = results.length :=
  (List.filterMap_length_eq_length.mpr fun _ => isSome_turn).trans List.length_range

/-- What is restored is what the turns gave. -/
@[simp]
theorem arrange_restore : schedule.arrange (schedule.restore results) = results := by
  refine List.ext_getElem? fun turn => ?_
  rw [getElem?_arrange, length_restore]
  by_cases inside : turn < results.length
  · have isTurn : turn < (schedule.order results.length).length := length_order.symm ▸ inside
    rw [List.getElem?_eq_getElem isTurn, Option.bind_some,
      getElem?_restore (mem_order.mp (List.getElem_mem isTurn)), nodup_order.idxOf_getElem]
  · have isOver := Nat.le_of_not_lt inside
    rw [List.getElem?_eq_none (length_order.symm ▸ isOver), List.getElem?_eq_none isOver,
      Option.bind_none]

/-- Items whose turns are taken back are those that were given. -/
@[simp]
theorem restore_arrange : schedule.restore (schedule.arrange items) = items := by
  refine List.ext_getElem? fun position => ?_
  by_cases inside : position < items.length
  · rw [getElem?_restore (length_arrange.symm ▸ inside), getElem?_arrange, length_arrange,
      List.getElem?_idxOf (mem_order.mpr inside), Option.bind_some]
  · have isOver := Nat.le_of_not_lt inside
    rw [List.getElem?_eq_none isOver, List.getElem?_eq_none]
    rw [length_restore, length_arrange]
    exact isOver

theorem restore_eq_iff : schedule.restore results = items ↔ results = schedule.arrange items := by
  constructor
  · rintro rfl
    exact arrange_restore.symm
  · rintro rfl
    exact restore_arrange

theorem perm_restore (schedule : Schedule) (results : List α) :
    (schedule.restore results).Perm results := by
  have turns := schedule.perm_arrange (schedule.restore results)
  rw [arrange_restore] at turns
  exact turns.symm

@[simp]
theorem mem_restore {result : α} : result ∈ schedule.restore results ↔ result ∈ results :=
  (schedule.perm_restore results).mem_iff

/-- Each reply goes back to the item whose turn gave it. -/
theorem perm_zip_restore {replies : List β} (sizes : replies.length = items.length) :
    (items.zip (schedule.restore replies)).Perm ((schedule.arrange items).zip replies) := by
  have turns := schedule.perm_arrange (items.zip (schedule.restore replies))
  rw [arrange_zip (length_restore.trans sizes).symm, arrange_restore] at turns
  exact turns.symm

@[simp]
theorem restore_inOrder : inOrder.restore results = results := by
  rw [restore_eq_iff, arrange_inOrder]

end Schedule

/-! ### Operations on several items -/

section Items

variable {α β : Type} {schedule : Schedule} {operate : Engine → α → Reply β × Engine}
  {engine after : Engine} {items : List α} {replies : List (Reply β)}

theorem length_runItems : (runItems operate engine items).1.length = items.length := by
  induction items generalizing engine with
  | nil => rfl
  | cons item rest inductionHypothesis => exact congrArg Nat.succ inductionHypothesis

theorem runAll_of_runItems (ran : runItems operate engine (schedule.arrange items) =
    (replies, after)) :
    runAll schedule operate engine items = (schedule.restore replies, after) := by
  rw [runAll, ran]

/-- What an operation on several items has replied, in the order of the turns. -/
theorem runItems_of_runAll (ran : runAll schedule operate engine items = (replies, after)) :
    runItems operate engine (schedule.arrange items) = (schedule.arrange replies, after) := by
  obtain ⟨restored, same⟩ := Prod.mk.inj ran
  exact Prod.ext (Schedule.restore_eq_iff.mp restored) same

theorem fst_runAll : (runAll schedule operate engine items).1 =
    schedule.restore (runItems operate engine (schedule.arrange items)).1 := rfl

theorem snd_runAll : (runAll schedule operate engine items).2 =
    (runItems operate engine (schedule.arrange items)).2 := rfl

theorem mem_runAll {reply : Reply β} : reply ∈ (runAll schedule operate engine items).1 ↔
    reply ∈ (runItems operate engine (schedule.arrange items)).1 :=
  Schedule.mem_restore

@[simp]
theorem length_runAll : (runAll schedule operate engine items).1.length = items.length := by
  rw [runAll, Schedule.length_restore, length_runItems, Schedule.length_arrange]

@[simp]
theorem runAll_inOrder :
    runAll .inOrder operate engine items = runItems operate engine items := by
  rw [runAll, Schedule.arrange_inOrder]
  exact Prod.ext Schedule.restore_inOrder rfl

end Items

end IndexedStore
