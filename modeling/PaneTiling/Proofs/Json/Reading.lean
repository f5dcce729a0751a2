import PaneTiling.Proofs.Json.Lexing

/-!
A printed value is read back. Reading the tokens of a value puts the value where it belongs,
whatever arrays and objects are open around it.
-/

namespace PaneTiling.Json

def Reads (before : Progress) (tokens : List Token) (after : Option Progress) : Prop :=
  tokens.foldlM Progress.step before = after

namespace Reads

variable {before middle : Progress} {tokens first second : List Token} {after : Option Progress}

theorem step (token : Token) (before : Progress) : Reads before [token] (before.step token) := by
  simp [Reads]

theorem trans (h : Reads before first (some middle)) (hrest : Reads middle second after) :
    Reads before (first ++ second) after := by
  unfold Reads at *
  rw [List.foldlM_append, h]
  exact hrest

end Reads

theorem exists_tokenList_eq_cons (value : Json) :
    ∃ token rest, value.tokenList = token :: rest ∧ (token == .closeArray) = false := by
  match value with
  | .null => exact ⟨_, _, rfl, rfl⟩
  | .bool _ => exact ⟨_, _, rfl, rfl⟩
  | .number _ => exact ⟨_, _, rfl, rfl⟩
  | .string _ => exact ⟨_, _, rfl, rfl⟩
  | .array [] => exact ⟨_, _, rfl, rfl⟩
  | .array (_ :: _) => exact ⟨_, _, rfl, rfl⟩
  | .object [] => exact ⟨_, _, rfl, rfl⟩
  | .object ((_, _) :: _) => exact ⟨_, _, rfl, rfl⟩

theorem reads_firstItem {frames : List Frame} {value : Json} {after : Option Progress}
    (h : Reads ⟨frames, .value .item⟩ value.tokenList after) :
    Reads ⟨frames, .itemOrClose⟩ value.tokenList after := by
  obtain ⟨token, rest, htokens, htoken⟩ := exists_tokenList_eq_cons value
  have hstep : Progress.step ⟨frames, .itemOrClose⟩ token =
      Progress.step ⟨frames, .value .item⟩ token := by
    simp [Progress.step, htoken]
  unfold Reads at *
  rw [htokens, List.foldlM_cons] at h ⊢
  rwa [hstep]

mutual

theorem reads_tokenList :
    (value : Json) → (place : Place) → (frames : List Frame) →
      Reads ⟨frames, .value place⟩ value.tokenList (put place value frames)
  | .null, place, frames => .step _ ⟨frames, .value place⟩
  | .bool value, place, frames => .step _ ⟨frames, .value place⟩
  | .number literal, place, frames => .step _ ⟨frames, .value place⟩
  | .string text, place, frames => .step _ ⟨frames, .value place⟩
  | .array [], place, frames => by
    have hopen := Reads.step .openArray ⟨frames, .value place⟩
    have hclose := Reads.step .closeArray ⟨.array place [] :: frames, .itemOrClose⟩
    exact hopen.trans hclose
  | .array (item :: items), place, frames => by
    have hopen := Reads.step .openArray ⟨frames, .value place⟩
    have hitem := reads_firstItem (reads_tokenList item .item (.array place [] :: frames))
    have hitems := reads_laterItems items place [item] frames
    have hclose := Reads.step .closeArray
      ⟨.array place (items.reverse ++ [item]) :: frames, .commaOrClose⟩
    have hvalue := hopen.trans (hitem.trans (hitems.trans hclose))
    simpa [tokenList, Progress.step, close] using hvalue
  | .object [], place, frames => by
    have hopen := Reads.step .openObject ⟨frames, .value place⟩
    have hclose := Reads.step .closeObject ⟨.object place [] :: frames, .keyOrClose⟩
    exact hopen.trans hclose
  | .object ((key, value) :: fields), place, frames => by
    have hopen := Reads.step .openObject ⟨frames, .value place⟩
    have hkey := Reads.step (.scalar (.string key)) ⟨.object place [] :: frames, .keyOrClose⟩
    have hcolon := Reads.step .colon ⟨.object place [] :: frames, .colon key⟩
    have hfield := reads_tokenList value (.member key) (.object place [] :: frames)
    have hfields := reads_laterFields fields place [(key, value)] frames
    have hclose := Reads.step .closeObject
      ⟨.object place (fields.reverse ++ [(key, value)]) :: frames, .commaOrClose⟩
    have hvalue := hopen.trans (hkey.trans (hcolon.trans (hfield.trans (hfields.trans hclose))))
    simpa [tokenList, Progress.step, close] using hvalue

theorem reads_laterItems :
    (items : List Json) → (place : Place) → (before : List Json) → (frames : List Frame) →
      Reads ⟨.array place before :: frames, .commaOrClose⟩ (laterItems items)
        (some ⟨.array place (items.reverse ++ before) :: frames, .commaOrClose⟩)
  | [], place, before, frames => rfl
  | item :: items, place, before, frames => by
    have hcomma := Reads.step .comma ⟨.array place before :: frames, .commaOrClose⟩
    have hitem := reads_tokenList item .item (.array place before :: frames)
    have hitems := reads_laterItems items place (item :: before) frames
    have hvalue := hcomma.trans (hitem.trans hitems)
    simpa [laterItems] using hvalue

theorem reads_laterFields :
    (fields : List (Option String × Json)) → (place : Place) →
      (before : List (Option String × Json)) → (frames : List Frame) →
        Reads ⟨.object place before :: frames, .commaOrClose⟩ (laterFields fields)
          (some ⟨.object place (fields.reverse ++ before) :: frames, .commaOrClose⟩)
  | [], place, before, frames => rfl
  | (key, value) :: fields, place, before, frames => by
    have hcomma := Reads.step .comma ⟨.object place before :: frames, .commaOrClose⟩
    have hkey := Reads.step (.scalar (.string key)) ⟨.object place before :: frames, .key⟩
    have hcolon := Reads.step .colon ⟨.object place before :: frames, .colon key⟩
    have hfield := reads_tokenList value (.member key) (.object place before :: frames)
    have hfields := reads_laterFields fields place ((key, value) :: before) frames
    have hvalue := hcomma.trans (hkey.trans (hcolon.trans (hfield.trans hfields)))
    simpa [laterFields] using hvalue

end

theorem ofChars?_pretty {value : Json} (h : value.Printable) :
    ofChars? (value.pretty 0) = some value := by
  have htokens : tokens (value.pretty 0) = some value.tokenList := by
    have hstops : Stops [] := nofun
    have hlexes := lexes_pretty 0 value h hstops
    simpa [Lexes, tokens, tokensFrom, finish] using hlexes
  have hread : value.tokenList.foldlM Progress.step ⟨[], .value .root⟩ = some ⟨[], .done value⟩ :=
    reads_tokenList value .root []
  simp [ofChars?, htokens, hread]

end PaneTiling.Json
