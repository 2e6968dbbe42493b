import ClassAtlas.Grammar.Basic

namespace ClassAtlas.Grammar

-- The names of Java.
def java : Grammar where
  kinds := [
    "annotated_type", "annotation", "annotation_argument_list", "annotation_type_body",
    "annotation_type_declaration", "annotation_type_element_declaration", "argument_list",
    "array_access", "array_creation_expression", "array_initializer", "array_type",
    "assert_statement", "assignment_expression", "asterisk", "binary_expression",
    "binary_integer_literal", "block", "block_comment", "boolean_type", "break_statement",
    "cast_expression", "catch_clause", "catch_formal_parameter", "catch_type",
    "character_literal", "class_body", "class_declaration", "class_literal",
    "compact_constructor_declaration", "condition", "constant_declaration", "constructor_body",
    "constructor_declaration", "continue_statement", "decimal_floating_point_literal",
    "decimal_integer_literal", "dimensions", "dimensions_expr", "do_statement",
    "element_value_array_initializer", "element_value_pair", "enhanced_for_statement",
    "enum_body", "enum_body_declarations", "enum_constant", "enum_declaration",
    "escape_sequence", "explicit_constructor_invocation", "exports_module_directive",
    "expression_statement", "extends_interfaces", "false", "field_access", "field_declaration",
    "finally_clause", "floating_point_type", "for_statement", "formal_parameter",
    "formal_parameters", "generic_type", "guard", "hex_floating_point_literal",
    "hex_integer_literal", "identifier", "if_statement", "import_declaration",
    "inferred_parameters", "instanceof_expression", "integral_type", "interface_body",
    "interface_declaration", "labeled_statement", "lambda_expression", "line_comment",
    "local_variable_declaration", "marker_annotation", "method_declaration", "method_invocation",
    "method_reference", "modifiers", "module_body", "module_declaration",
    "multiline_string_fragment", "null_literal", "object_creation_expression",
    "octal_integer_literal", "opens_module_directive", "package_declaration",
    "parenthesized_expression", "pattern", "permits", "program", "provides_module_directive",
    "receiver_parameter", "record_declaration", "record_pattern", "record_pattern_body",
    "record_pattern_component", "requires_modifier", "requires_module_directive", "resource",
    "resource_specification", "return_statement", "scoped_identifier", "scoped_type_identifier",
    "spread_parameter", "static_initializer", "string_fragment", "string_interpolation",
    "string_literal", "super", "super_interfaces", "superclass", "switch_block",
    "switch_block_statement_group", "switch_expression", "switch_label", "switch_rule",
    "synchronized_statement", "template_expression", "ternary_expression", "this",
    "throw_statement", "throws", "true", "try_statement", "try_with_resources_statement",
    "type_arguments", "type_bound", "type_identifier", "type_list", "type_parameter",
    "type_parameters", "type_pattern", "unary_expression", "underscore_pattern",
    "update_expression", "uses_module_directive", "variable_declarator", "void_type",
    "while_statement", "wildcard", "yield_statement"]
  fields := [
    "alternative", "arguments", "array", "body", "condition", "consequence", "constructor",
    "declarator", "dimensions", "element", "field", "index", "init", "interfaces", "key", "left",
    "modifiers", "module", "modules", "name", "object", "operand", "operator", "package",
    "parameters", "pattern", "permits", "provided", "provider", "resources", "right", "scope",
    "superclass", "template_argument", "template_processor", "type", "type_arguments",
    "type_parameters", "update", "value"]

end ClassAtlas.Grammar
