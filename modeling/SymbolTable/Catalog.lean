/-
The catalogue of classes that the table refers to by name.

Each tier lists its classes in the order in which they are resolved, and
each class has a label within its tier.
-/
import SymbolTable.Options

namespace SymbolTable

/-- A class of a tier. -/
structure CatalogEntry where
  label : String
  flat : Name
  deriving DecidableEq, Repr

namespace Catalog

/-- Classes of the platform, which every compilation needs. -/
def platform : List CatalogEntry :=
  [⟨"object", "java.lang.Object"⟩,
   ⟨"class", "java.lang.Class"⟩,
   ⟨"string", "java.lang.String"⟩,
   ⟨"string_buffer", "java.lang.StringBuffer"⟩,
   ⟨"string_builder", "java.lang.StringBuilder"⟩,
   ⟨"boolean_object", "java.lang.Boolean"⟩,
   ⟨"integer_object", "java.lang.Integer"⟩,
   ⟨"long_object", "java.lang.Long"⟩,
   ⟨"float_object", "java.lang.Float"⟩,
   ⟨"double_object", "java.lang.Double"⟩,
   ⟨"character_object", "java.lang.Character"⟩,
   ⟨"cloneable", "java.lang.Cloneable"⟩,
   ⟨"throwable", "java.lang.Throwable"⟩,
   ⟨"serializable", "java.io.Serializable"⟩,
   ⟨"method_handle", "java.lang.invoke.MethodHandle"⟩,
   ⟨"method_handle_lookup", "java.lang.invoke.MethodHandles$Lookup"⟩,
   ⟨"method_handles", "java.lang.invoke.MethodHandles"⟩,
   ⟨"method_type", "java.lang.invoke.MethodType"⟩,
   ⟨"polymorphic_signature", "java.lang.invoke.MethodHandle$PolymorphicSignature"⟩,
   ⟨"error", "java.lang.Error"⟩,
   ⟨"illegal_argument_exception", "java.lang.IllegalArgumentException"⟩,
   ⟨"interrupted_exception", "java.lang.InterruptedException"⟩,
   ⟨"exception", "java.lang.Exception"⟩,
   ⟨"runtime_exception", "java.lang.RuntimeException"⟩,
   ⟨"class_not_found_exception", "java.lang.ClassNotFoundException"⟩,
   ⟨"no_class_def_found_error", "java.lang.NoClassDefFoundError"⟩,
   ⟨"no_such_field_error", "java.lang.NoSuchFieldError"⟩,
   ⟨"assertion_error", "java.lang.AssertionError"⟩,
   ⟨"clone_not_supported_exception", "java.lang.CloneNotSupportedException"⟩,
   ⟨"null_pointer_exception", "java.lang.NullPointerException"⟩,
   ⟨"annotation", "java.lang.annotation.Annotation"⟩,
   ⟨"class_loader", "java.lang.ClassLoader"⟩,
   ⟨"enum_class", "java.lang.Enum"⟩,
   ⟨"list", "java.util.List"⟩,
   ⟨"collections", "java.util.Collections"⟩,
   ⟨"comparable", "java.lang.Comparable"⟩,
   ⟨"arrays", "java.util.Arrays"⟩,
   ⟨"iterator", "java.util.Iterator"⟩,
   ⟨"annotation_target", "java.lang.annotation.Target"⟩,
   ⟨"override_annotation", "java.lang.Override"⟩,
   ⟨"retention", "java.lang.annotation.Retention"⟩,
   ⟨"retention_policy", "java.lang.annotation.RetentionPolicy"⟩,
   ⟨"element_type", "java.lang.annotation.ElementType"⟩,
   ⟨"deprecated", "java.lang.Deprecated"⟩,
   ⟨"suppress_warnings", "java.lang.SuppressWarnings"⟩,
   ⟨"inherited", "java.lang.annotation.Inherited"⟩,
   ⟨"system", "java.lang.System"⟩,
   ⟨"auto_closeable", "java.lang.AutoCloseable"⟩,
   ⟨"safe_varargs", "java.lang.SafeVarargs"⟩]

/-- Classes of the core library, left out while that library is compiled from source. -/
def core : List CatalogEntry :=
  [⟨"anything", "raven.language.Anything"⟩,
   ⟨"object", "raven.language.Object"⟩,
   ⟨"identifiable", "raven.language.Identifiable"⟩,
   ⟨"float", "raven.language.Float"⟩,
   ⟨"integer", "raven.language.Integer"⟩,
   ⟨"string", "raven.language.String"⟩,
   ⟨"tuple", "raven.language.Tuple"⟩,
   ⟨"array", "raven.language.Array"⟩,
   ⟨"array_iterable", "raven.runtime.language.ArrayIterable"⟩,
   ⟨"abstract_iterable", "raven.runtime.language.AbstractIterable"⟩,
   ⟨"abstract_iterator", "raven.runtime.language.AbstractIterator"⟩,
   ⟨"lazy_iterable", "raven.runtime.language.LazyIterable"⟩,
   ⟨"lazy_invoking_iterable", "raven.runtime.language.LazyInvokingIterable"⟩,
   ⟨"character", "raven.language.Character"⟩,
   ⟨"byte", "raven.language.Byte"⟩,
   ⟨"boolean", "raven.language.Boolean"⟩,
   ⟨"finished", "raven.language.Finished"⟩,
   ⟨"exception", "raven.language.Exception"⟩,
   ⟨"throwable", "raven.language.Throwable"⟩,
   ⟨"assertion_error", "raven.language.AssertionError"⟩,
   ⟨"initialization_error", "raven.language.InitializationError"⟩,
   ⟨"enumerated_type_error", "raven.runtime.language.EnumeratedTypeError"⟩,
   ⟨"uninvokable_error", "raven.runtime.language.UninvokableError"⟩,
   ⟨"uninitialized_method_error", "raven.runtime.language.UninitializedMethodError"⟩,
   ⟨"unresolved_compilation_error", "raven.runtime.language.UnresolvedCompilationError"⟩,
   ⟨"abstract_callable", "raven.runtime.language.AbstractCallable"⟩,
   ⟨"abstract_type_constructor", "raven.runtime.language.AbstractTypeConstructor"⟩,
   ⟨"serialization_proxy", "raven.runtime.language.SerializationProxy"⟩,
   ⟨"variable_box", "raven.runtime.language.VariableBox"⟩,
   ⟨"variable_box_long", "raven.runtime.language.VariableBoxLong"⟩,
   ⟨"variable_box_int", "raven.runtime.language.VariableBoxInt"⟩,
   ⟨"variable_box_double", "raven.runtime.language.VariableBoxDouble"⟩,
   ⟨"variable_box_byte", "raven.runtime.language.VariableBoxByte"⟩,
   ⟨"variable_box_boolean", "raven.runtime.language.VariableBoxBoolean"⟩,
   ⟨"getter", "raven.runtime.language.Getter"⟩,
   ⟨"getter_long", "raven.runtime.language.GetterLong"⟩,
   ⟨"getter_int", "raven.runtime.language.GetterInt"⟩,
   ⟨"getter_double", "raven.runtime.language.GetterDouble"⟩,
   ⟨"getter_byte", "raven.runtime.language.GetterByte"⟩,
   ⟨"getter_boolean", "raven.runtime.language.GetterBoolean"⟩]

/-- Classes that support compiled programs, always resolved. -/
def runtime : List CatalogEntry :=
  [⟨"at_raven", "raven.runtime.metadata.Raven"⟩,
   ⟨"at_dynamic", "raven.runtime.metadata.Dynamic"⟩,
   ⟨"at_import", "raven.runtime.metadata.Import"⟩,
   ⟨"at_module", "raven.runtime.metadata.Module"⟩,
   ⟨"at_package", "raven.runtime.metadata.Package"⟩,
   ⟨"at_name", "raven.runtime.metadata.Name"⟩,
   ⟨"at_enumerated", "raven.runtime.metadata.Enumerated"⟩,
   ⟨"at_sequenced", "raven.runtime.metadata.Sequenced"⟩,
   ⟨"at_defaulted", "raven.runtime.metadata.Defaulted"⟩,
   ⟨"at_type_info", "raven.runtime.metadata.TypeInfo"⟩,
   ⟨"at_attribute", "raven.runtime.metadata.Attribute"⟩,
   ⟨"at_method", "raven.runtime.metadata.Method"⟩,
   ⟨"at_functional_parameter", "raven.runtime.metadata.FunctionalParameter"⟩,
   ⟨"at_object", "raven.runtime.metadata.Object"⟩,
   ⟨"at_class", "raven.runtime.metadata.Class"⟩,
   ⟨"at_satisfied_types", "raven.runtime.metadata.SatisfiedTypes"⟩,
   ⟨"at_case_types", "raven.runtime.metadata.CaseTypes"⟩,
   ⟨"at_ignore", "raven.runtime.metadata.Ignore"⟩,
   ⟨"at_constructor_name", "raven.runtime.metadata.ConstructorName"⟩,
   ⟨"at_jpa", "raven.runtime.metadata.Jpa"⟩,
   ⟨"variance", "raven.runtime.metadata.Variance"⟩,
   ⟨"at_type_parameter", "raven.runtime.metadata.TypeParameter"⟩,
   ⟨"at_type_parameters", "raven.runtime.metadata.TypeParameters"⟩,
   ⟨"at_annotations", "raven.runtime.metadata.Annotations"⟩,
   ⟨"at_annotation", "raven.runtime.metadata.Annotation"⟩,
   ⟨"at_annotation_instantiation", "raven.runtime.metadata.AnnotationInstantiation"⟩,
   ⟨"at_annotation_instantiation_tree", "raven.runtime.metadata.AnnotationInstantiationTree"⟩,
   ⟨"at_declaration_reference", "raven.runtime.metadata.DeclarationReference"⟩,
   ⟨"at_enumeration_reference", "raven.runtime.metadata.EnumerationReference"⟩,
   ⟨"at_container", "raven.runtime.metadata.Container"⟩,
   ⟨"at_local_container", "raven.runtime.metadata.LocalContainer"⟩,
   ⟨"at_local_declaration", "raven.runtime.metadata.LocalDeclaration"⟩,
   ⟨"at_local_declarations", "raven.runtime.metadata.LocalDeclarations"⟩,
   ⟨"at_member", "raven.runtime.metadata.Member"⟩,
   ⟨"at_members", "raven.runtime.metadata.Members"⟩,
   ⟨"at_named_argument", "raven.runtime.metadata.NamedArgument"⟩,
   ⟨"at_value_type", "raven.runtime.metadata.ValueType"⟩,
   ⟨"at_alias", "raven.runtime.metadata.Alias"⟩,
   ⟨"at_type_alias", "raven.runtime.metadata.TypeAlias"⟩,
   ⟨"at_transient", "raven.runtime.metadata.Transient"⟩,
   ⟨"at_compile_time_error", "raven.runtime.metadata.CompileTimeError"⟩,
   ⟨"at_setter", "raven.runtime.metadata.Setter"⟩,
   ⟨"at_boolean_value", "raven.runtime.metadata.BooleanValue"⟩,
   ⟨"at_boolean_exprs", "raven.runtime.metadata.BooleanExprs"⟩,
   ⟨"at_character_value", "raven.runtime.metadata.CharacterValue"⟩,
   ⟨"at_character_exprs", "raven.runtime.metadata.CharacterExprs"⟩,
   ⟨"at_declaration_value", "raven.runtime.metadata.DeclarationValue"⟩,
   ⟨"at_declaration_exprs", "raven.runtime.metadata.DeclarationExprs"⟩,
   ⟨"at_float_value", "raven.runtime.metadata.FloatValue"⟩,
   ⟨"at_float_exprs", "raven.runtime.metadata.FloatExprs"⟩,
   ⟨"at_integer_value", "raven.runtime.metadata.IntegerValue"⟩,
   ⟨"at_integer_exprs", "raven.runtime.metadata.IntegerExprs"⟩,
   ⟨"at_object_value", "raven.runtime.metadata.ObjectValue"⟩,
   ⟨"at_object_exprs", "raven.runtime.metadata.ObjectExprs"⟩,
   ⟨"at_string_value", "raven.runtime.metadata.StringValue"⟩,
   ⟨"at_string_exprs", "raven.runtime.metadata.StringExprs"⟩,
   ⟨"at_parameter_value", "raven.runtime.metadata.ParameterValue"⟩,
   ⟨"util", "raven.runtime.Util"⟩,
   ⟨"metamodel", "raven.runtime.metamodel.Metamodel"⟩,
   ⟨"type_descriptor", "raven.runtime.model.TypeDescriptor"⟩,
   ⟨"reified_type", "raven.runtime.model.ReifiedType"⟩,
   ⟨"serialization", "raven.runtime.serialization.Serialization"⟩,
   ⟨"serializable", "raven.runtime.serialization.Serializable"⟩,
   ⟨"reachable_reference", "raven.language.serialization.ReachableReference"⟩,
   ⟨"member", "raven.language.serialization.Member"⟩,
   ⟨"member_impl", "raven.language.impl.MemberImpl"⟩,
   ⟨"outer", "raven.language.serialization.Outer"⟩,
   ⟨"outer_impl", "raven.language.impl.OuterImpl"⟩,
   ⟨"element", "raven.language.serialization.Element"⟩,
   ⟨"element_impl", "raven.language.impl.ElementImpl"⟩,
   ⟨"uninitialized_late_value", "raven.language.serialization.UninitializedLateValue"⟩,
   ⟨"at_no_init_check", "raven.runtime.metadata.NoInitCheck"⟩]

/-- The flat names of a tier. -/
def flatNames (tier : List CatalogEntry) : List Name := tier.map (·.flat)

/-- Platform classes that are interfaces. -/
def interfaces : List Name :=
  ["java.lang.Cloneable",
   "java.io.Serializable",
   "java.lang.Comparable",
   "java.lang.Iterable",
   "java.lang.AutoCloseable",
   "java.util.Collection",
   "java.util.List",
   "java.util.Iterator",
   "java.lang.annotation.Annotation"]

/-- Annotations that have no class file. -/
def markers : List Name := ["sun.Proprietary+Annotation", "jdk.Profile+Annotation"]

/-- Classes that may be missing and are then empty interfaces. -/
def optionalInterfaces : List Name :=
  ["java.lang.AutoCloseable",
   "java.lang.Cloneable",
   "java.io.Serializable",
   "java.lang.invoke.MethodHandle$PolymorphicSignature"]

end Catalog

end SymbolTable
