import ModuleScaffold.Source.Damage

/-!
# Source files

A source text is read into its items: the comments and statements at its top level. Text that does
not follow the grammar gives damaged items, so that every source has a list of items.
-/

namespace ModuleScaffold

namespace Source

/-- The items of what remains of a source, at most `fuel` of them. -/
def itemsFrom (r : Reader) : Nat → Chars → List Item
  | 0, _ => []
  | fuel + 1, cs =>
    match cs.dropWhile isSpace with
    | [] => []
    | c :: rest =>
      match comment? (c :: rest) with
      | some behind => .comment ⟨c :: rest, behind⟩ :: itemsFrom r fuel behind
      | none =>
        match statement r (c :: rest) with
        | some (found, behind) => found :: itemsFrom r fuel behind
        | none =>
          let (found, behind) := damagedStatement r (c :: rest)
          found :: itemsFrom r fuel behind

/-- The items of a source. A first line that names an interpreter is a statement. -/
def items (source : Chars) : List Item :=
  let r := reader (source.length + 1)
  match source with
  | '#' :: '!' :: rest =>
    let behind := rest.dropWhile (! endsLine ·)
    .other ⟨source, behind⟩ :: itemsFrom r (source.length + 1) behind
  | _ => itemsFrom r (source.length + 1) source

/-- Whether an item follows the grammar. -/
def Item.isSound : Item → Bool
  | importing .damaged _ => false
  | declaring _ sound _ _ => sound
  | exported value _ => ! value.isDamaged
  | damaged _ | unreadable _ => false
  | _ => true

/-- The fragment of an item. -/
def Item.fragment : Item → Fragment
  | comment f | importing _ f | declaring _ _ _ f | exported _ f | expression _ f | empty f
  | other f | damaged f | unreadable f => f

end Source

end ModuleScaffold
