import Externs.Conventions
import Externs.Declaration.OfModel

/-!
# Declaration files

From a namespace to the text of its declaration file. All declarations are made
before any is written, so a namespace with a defect gives no text at all.
-/

set_option autoImplicit false

namespace Externs

open Layout (Listing)

/-- The entities of a namespace in the order of their declarations. -/
def Namespace.entities (space : Namespace) : List Entity :=
  space.types.map .type ++ space.functions.map .function ++ space.events.map .event

/-- The first name that stands a second time. -/
def firstRepeated? : (seen : List String) → List String → Option String
  | _, [] => none
  | seen, name :: rest =>
      if seen.contains name then some name else firstRepeated? (name :: seen) rest

/-- Types, functions and events share their names. -/
def Namespace.checkNames (space : Namespace) : Except Defect Unit :=
  match firstRepeated? [] (space.entities.map Entity.name) with
  | some name => throw (.repeatedName space.name name)
  | none => return ()

/-! ## Files -/

/-- What all declarations of a file have in common. -/
structure Generator where
  conventions : Conventions
  provenance : Provenance
  deriving DecidableEq, Repr

namespace Generator

def site (generator : Generator) (space : Namespace) : Site :=
  ⟨generator.conventions.docBaseUrl, generator.conventions.root, space.name⟩

def headerLines (generator : Generator) (space : Namespace) : List String :=
  let path := (generator.site space).scope.path
  [ "// Copyright " ++ toString generator.provenance.year ++ " " ++
      generator.conventions.copyrightHolder ++ ". All rights reserved.",
    "// Use of this source code is governed by a BSD-style license that can be",
    "// found in the LICENSE file.",
    "",
    "// This file was generated by:",
    "//   " ++ generator.provenance.displayCommand ++ ".",
    "// NOTE: The format of types has changed. 'FooType' is now",
    "//   '" ++ path ++ ".FooType'.",
    "// Please run the closure compiler before committing changes.",
    "// See https://chromium.googlesource.com/chromium/src/+/master/docs/closure_compilation.md",
    "",
    "/** @fileoverview Externs generated from namespace: " ++ space.name ++ " */",
    "",
    "/**",
    " * @const",
    " */",
    path ++ " = \x7b\x7d;",
    "" ]

/-- Writes blocks with a blank line after each. -/
def writeBlocks (blocks : List Block) (listing : Listing) : Listing :=
  blocks.foldl (fun listing block => (block.write listing).blank) listing

def listing (generator : Generator) (space : Namespace) : Except Defect Listing := do
  space.checkNames
  let blocks ← space.entities.mapM (generator.site space).entityBlock
  let header := (Listing.ofWidth generator.conventions.commentWidth).appendAll
    (generator.headerLines space)
  return (writeBlocks blocks header).trimEnd

def generate (generator : Generator) (space : Namespace) : Except Defect String := do
  return (← generator.listing space).text ++ "\n"

end Generator

end Externs
