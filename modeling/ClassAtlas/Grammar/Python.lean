import ClassAtlas.Grammar.Basic

namespace ClassAtlas.Grammar

-- The names of Python.
def python : Grammar where
  kinds := [
    "aliased_import", "argument_list", "as_pattern", "as_pattern_target", "assert_statement",
    "assignment", "attribute", "augmented_assignment", "await", "binary_operator", "block",
    "boolean_operator", "break_statement", "call", "case_clause", "case_pattern", "chevron",
    "class_definition", "class_pattern", "comment", "comparison_operator", "complex_pattern",
    "concatenated_string", "conditional_expression", "constrained_type", "continue_statement",
    "decorated_definition", "decorator", "default_parameter", "delete_statement", "dict_pattern",
    "dictionary", "dictionary_comprehension", "dictionary_splat", "dictionary_splat_pattern",
    "dotted_name", "elif_clause", "ellipsis", "else_clause", "escape_interpolation",
    "escape_sequence", "except_clause", "except_group_clause", "exec_statement",
    "expression_list", "expression_statement", "false", "finally_clause", "float",
    "for_in_clause", "for_statement", "format_expression", "format_specifier",
    "function_definition", "future_import_statement", "generator_expression", "generic_type",
    "global_statement", "identifier", "if_clause", "if_statement", "import_from_statement",
    "import_prefix", "import_statement", "integer", "interpolation", "keyword_argument",
    "keyword_pattern", "keyword_separator", "lambda", "lambda_parameters", "line_continuation",
    "list", "list_comprehension", "list_pattern", "list_splat", "list_splat_pattern",
    "match_statement", "member_type", "module", "named_expression", "none", "nonlocal_statement",
    "not_operator", "pair", "parameters", "parenthesized_expression", "parenthesized_list_splat",
    "pass_statement", "pattern_list", "positional_separator", "print_statement",
    "raise_statement", "relative_import", "return_statement", "set", "set_comprehension",
    "slice", "splat_pattern", "splat_type", "string", "string_content", "string_end",
    "string_start", "subscript", "true", "try_statement", "tuple", "tuple_pattern", "type",
    "type_alias_statement", "type_conversion", "type_parameter", "typed_default_parameter",
    "typed_parameter", "unary_operator", "union_pattern", "union_type", "while_statement",
    "wildcard_import", "with_clause", "with_item", "with_statement", "yield"]
  fields := [
    "alias", "alternative", "argument", "arguments", "attribute", "body", "cause", "code",
    "condition", "consequence", "definition", "expression", "format_specifier", "function",
    "guard", "key", "left", "module_name", "name", "object", "operator", "operators",
    "parameters", "return_type", "right", "subject", "subscript", "superclasses", "type",
    "type_conversion", "type_parameters", "value"]

end ClassAtlas.Grammar
