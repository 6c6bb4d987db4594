import XrBindings.Main
import XrBindings.Proofs.AliasWalk
import XrBindings.Proofs.Bindings.ArrayType
import XrBindings.Proofs.Bindings.Closure
import XrBindings.Proofs.Bindings.Collision
import XrBindings.Proofs.Bindings.Discriminant
import XrBindings.Proofs.Bindings.EnumLayout
import XrBindings.Proofs.Bindings.FlagMembers
import XrBindings.Proofs.Bindings.FlagType
import XrBindings.Proofs.Bindings.Growth
import XrBindings.Proofs.Bindings.PointerType
import XrBindings.Proofs.Bindings.Rejection
import XrBindings.Proofs.Bindings.ResultCheck
import XrBindings.Proofs.Bindings.ResultSwitch
import XrBindings.Proofs.Bindings.Wrapper
import XrBindings.Proofs.Command.ResultCodes
import XrBindings.Proofs.Command.ResultPartition
import XrBindings.Proofs.Command.Signature
import XrBindings.Proofs.Flags.Conversion
import XrBindings.Proofs.Naming.Boundary
import XrBindings.Proofs.Naming.Idempotence
import XrBindings.Proofs.Naming.Skeleton
import XrBindings.Proofs.Naming.SnakeForm
import XrBindings.Proofs.Number.CInteger
import XrBindings.Proofs.Registry.Constants
import XrBindings.Proofs.Registry.EnumTables
import XrBindings.Proofs.Registry.Foreign
import XrBindings.Proofs.Registry.Mentions
import XrBindings.Proofs.Registry.PlainDeclaration
import XrBindings.Proofs.Registry.Sections
import XrBindings.Proofs.TypeGraph.Spelling
