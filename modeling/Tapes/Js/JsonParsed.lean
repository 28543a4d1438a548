import Tapes.Js.Json

namespace Tapes.Js

/-! What `JSON.parse` returns: nothing undefined, and each key of an object once. -/

mutual

def Parsed : JsValue → Prop
  | .undefined => False
  | .array items => AllParsed items
  | .object members => (members.map Prod.fst).Nodup ∧ MembersParsed members
  | _ => True

def AllParsed : List JsValue → Prop
  | [] => True
  | item :: rest => Parsed item ∧ AllParsed rest

def MembersParsed : List (JsString × JsValue) → Prop
  | [] => True
  | (_, value) :: rest => Parsed value ∧ MembersParsed rest

end

theorem AllParsed.append {items : List JsValue} {item : JsValue} (parsed : AllParsed items)
    (last : Parsed item) : AllParsed (items ++ [item]) := by
  induction items with
  | nil => exact ⟨last, trivial⟩
  | cons first rest induction => exact ⟨parsed.1, induction parsed.2⟩

theorem membersParsed_iff {members : List (JsString × JsValue)} :
    MembersParsed members ↔ ∀ member ∈ members, Parsed member.2 := by
  induction members with
  | nil => simp [MembersParsed]
  | cons member rest induction =>
      obtain ⟨key, value⟩ := member
      rw [MembersParsed, List.forall_mem_cons, induction]

theorem parsed_setEntry {members : List (JsString × JsValue)} (key : JsString) {value : JsValue}
    (parsed : Parsed (.object members)) (new : Parsed value) :
    Parsed (.object (setEntry members key value)) := by
  obtain ⟨distinct, each⟩ := parsed
  refine ⟨setEntry_nodup key value distinct, membersParsed_iff.mpr ?_⟩
  intro member inside
  rcases mem_setEntry.mp inside with same | ⟨-, old⟩
  · rwa [same]
  · exact membersParsed_iff.mp each member old

structure Gives (fuel : Nat) : Prop where
  value : ∀ text value rest, parseValue fuel text = some (value, rest) → Parsed value
  items : ∀ items text value rest, AllParsed items →
    parseItems fuel items text = some (value, rest) → Parsed value
  members : ∀ members text value rest, Parsed (.object members) →
    parseMembers fuel members text = some (value, rest) → Parsed value

section

variable {fuel : Nat} {text rest : JsString} {value : JsValue}

theorem gives_value (gives : Gives fuel)
    (read : parseValue (fuel + 1) text = some (value, rest)) : Parsed value := by
  have none : Parsed (.object []) := ⟨List.nodup_nil, trivial⟩
  simp only [parseValue] at read
  cases skipped : skipSpace text with
  | nil => simp [skipped] at read
  | cons unit after =>
      simp only [skipped] at read
      split_ifs at read with brace bracket quote t f n
      · split at read
        · cases read
          exact none
        · exact gives.members _ _ _ _ none read
      · split at read
        · cases read
          trivial
        · exact gives.items [] _ _ _ trivial read
      all_goals
        obtain ⟨pair, -, same⟩ := Option.map_eq_some_iff.mp read
        cases same
        trivial

theorem gives_items {items : List JsValue} (gives : Gives fuel) (parsed : AllParsed items)
    (read : parseItems (fuel + 1) items text = some (value, rest)) : Parsed value := by
  simp only [parseItems] at read
  split at read
  · cases read
  · rename_i item left first
    have longer := parsed.append (gives.value _ _ _ first)
    split at read
    · exact gives.items _ _ _ _ longer read
    · cases read
      exact longer
    · cases read

theorem gives_members {members : List (JsString × JsValue)} (gives : Gives fuel)
    (parsed : Parsed (.object members))
    (read : parseMembers (fuel + 1) members text = some (value, rest)) : Parsed value := by
  simp only [parseMembers] at read
  split at read
  · split at read
    · cases read
    · rename_i key left string
      split at read
      · split at read
        · cases read
        · rename_i member left' first
          have longer := parsed_setEntry key parsed (gives.value _ _ _ first)
          split at read
          · exact gives.members _ _ _ _ longer read
          · cases read
            exact longer
          · cases read
      · cases read
  · cases read

end

theorem gives_of_fuel (fuel : Nat) : Gives fuel := by
  induction fuel with
  | zero =>
      refine ⟨?_, ?_, ?_⟩
      · intro text value rest read
        cases read
      · intro items text value rest parsed read
        cases read
      · intro members text value rest parsed read
        cases read
  | succ fuel induction =>
      exact ⟨fun _ _ _ read => gives_value induction read,
        fun _ _ _ _ parsed read => gives_items induction parsed read,
        fun _ _ _ _ parsed read => gives_members induction parsed read⟩

theorem parsed_of_parse {text : JsString} {value : JsValue} (read : parse text = some value) :
    Parsed value := by
  rw [parse] at read
  split at read
  · rename_i value' rest first
    split at read
    · cases read
      exact (gives_of_fuel _).value _ _ _ first
    · cases read
  · cases read

end Tapes.Js
