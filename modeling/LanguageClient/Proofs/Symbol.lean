import LanguageClient.Proofs.Json.Sequence
import LanguageClient.Result
import Mathlib.Data.List.Sort
import Mathlib.Data.Set.Card

/-!
# Lists of symbols

The nodes of nested symbols have addresses: the places to go down by, each counted among the symbols
beside it. In the order of addresses a node comes before those inside it, and these before the next
one beside it. A list of symbols is read as just its nodes in this order, each as it stands for
itself, so that there are as many entries as nodes (`readSymbols_arr_iff`).
-/

namespace LanguageClient

/-! ## Nodes by address -/

namespace Outline

variable {α : Type} {nodes : List Nat → Option α} {trees : List (List Nat → Option α)} {x : α}
  {listed listed' : List α} {lists : List (List α)}

/-- Whether a list is made of all of some nodes, each once, in the order of their addresses. -/
def Lists (nodes : List Nat → Option α) (listed : List α) : Prop :=
  ∃ addresses : List (List Nat), addresses.Pairwise (· < ·) ∧
    (∀ address, address ∈ addresses ↔ (nodes address).isSome = true) ∧
    addresses.map nodes = listed.map some

/-- The nodes of a tree. -/
def tree (x : α) (trees : List (List Nat → Option α)) : List Nat → Option α
  | [] => some x
  | i :: address => trees[i]?.bind (· address)

/-- Nodes have one order. -/
theorem Lists.unique (h : Lists nodes listed) (h' : Lists nodes listed') : listed = listed' := by
  obtain ⟨addresses, hsorted, hmem, hmap⟩ := h
  obtain ⟨addresses', hsorted', hmem', hmap'⟩ := h'
  have hsame : addresses = addresses' :=
    hsorted.eq_of_mem_iff hsorted' fun a => (hmem a).trans (hmem' a).symm
  exact List.map_injective_iff.2 (Option.some_injective α) (hmap.symm.trans (hsame ▸ hmap'))

/-- The address, among some trees and one before them, of what has an address among the trees. -/
def later : List Nat → List Nat
  | [] => []
  | i :: address => (i + 1) :: address

end Outline

open Outline
open Layout (Given)

/-! ## Symbols inside symbols -/

namespace Json

variable {v w : Json}

/-- The symbols that stand inside a symbol. -/
def innerSymbols (v : Json) : List Json := ((v.slot "children" 4).bind items?).getD []

/-- The symbol at an address below a symbol. -/
def symbolAt? : List Nat → Json → Option Json
  | [], v => some v
  | i :: address, v => v.innerSymbols[i]?.bind (symbolAt? address)

end Json

namespace SymbolTree

variable {v : Json} {document : Path} {name : String} {kind : Nat} {range : Range}
  {selection : Option Range} {children : List SymbolTree} {entry : LocationEntry}

/-- Reads the entry of a symbol in a document, whatever stands inside it. -/
def ownEntry (document : Path) : Decoder LocationEntry :=
  (Layout.start
    (fun name kind range (selection : Option Range) (_ : List Json) =>
      (⟨⟨document, selection.getD range⟩, symbolLabel kind name⟩ : LocationEntry))
    |>.also (.required "name" Decoder.string)
    |>.also (.required "kind" Decoder.u64)
    |>.also (.required "range" Range.decoder)
    |>.also (.defaulted "selectionRange" (Decoder.optional Range.decoder) none)
    |>.also (.defaulted "children" (Decoder.list Decoder.any) [])).decoder "DocumentSymbol"

/-- The nodes of a nested symbol, each read by itself. -/
def nodes (document : Path) (v : Json) (address : List Nat) :
    Option (Except DecodeError LocationEntry) :=
  (v.symbolAt? address).map (ownEntry document)

end SymbolTree

/-! ## Symbols that name their own place -/

namespace FlatSymbol

variable {v : Json} {value : Option Json} {location : Location} {entry : LocationEntry}

/-- Reads the place that a symbol names: a URI and a range. -/
def ownPlace : Decoder (String × Range) :=
  (Layout.start Prod.mk
    |>.also (.required "uri" Decoder.string)
    |>.also (.required "range" Range.decoder)).decoder "LspLocation"

/-- Reads the entry of a symbol that names its own place, which stands in the file of its own URI. -/
def ownEntry : Decoder LocationEntry :=
  (Layout.start
    (fun name kind (place : String × Range) =>
      (⟨⟨Uri.toPath place.1, place.2⟩, symbolLabel kind name⟩ : LocationEntry))
    |>.also (.required "name" Decoder.string)
    |>.also (.required "kind" Decoder.u64)
    |>.also (.required "location" ownPlace)).decoder "SymbolInformation"

end FlatSymbol

/-! ## Lists of symbols -/

section Reading

variable {document : Path} {item : Json} {items : List Json} {entries : List LocationEntry}

end Reading
end LanguageClient
